import LastLayer.Proofs.Notation.Lengths
import LastLayer.Proofs.Notation.Unfolding
import Mathlib.Logic.Relation

/-!
# Reading in small steps

Taking a token into an expansion may copy a group many times. To speak of all sequences that are
held on the way, and of what has been done when a fault is found, `Reader.Step` takes reading apart
into steps so small that each of them puts one copy of a group behind a sequence.

The steps come to an end (`Reader.exists_final`), and to the same end as `Expansion.run`
(`Reader.prospect_eq_of_reaches`, `Reader.IsFinal.prospect_eq`). The invariant `Reader.Fits` bounds
all sequences that a reader holds: what has been repeated is within the limit, and what has not been
repeated has been read.
-/

namespace LastLayer.Notation

/-! ## Readers -/

/-- What a reader does next. -/
inductive Stage where
  /-- It takes the next token. -/
  | ready
  /-- It puts more copies of a group behind the current sequence. -/
  | copying (group : Array Move) (left : Nat)
  /-- It has reported a fault and does nothing more. -/
  | failed (error : Error)

/-- A reader at work. -/
structure Reader where
  /-- The sequences that it holds. -/
  expansion : Expansion
  /-- What it does next. -/
  stage : Stage
  /-- The tokens that it has not taken yet. -/
  tokens : List Token

namespace Reader

/-- The reader of some tokens before it has taken any. -/
def start (tokens : List Token) : Reader := ⟨.start, .ready, tokens⟩

/-- A step of a reader. The parenthesis behind a group takes the group off the sequence around it;
then the repeat count is checked, and only if it is in range the copies are made, one in each
step. -/
inductive Step : Reader → Reader → Prop
  | move {current enclosing tokens} (move : Move) :
    Step ⟨⟨current, enclosing⟩, .ready, .move move :: tokens⟩
      ⟨⟨current.push move, enclosing⟩, .ready, tokens⟩
  | opening {current enclosing tokens} :
    Step ⟨⟨current, enclosing⟩, .ready, .opening :: tokens⟩
      ⟨⟨#[], current :: enclosing⟩, .ready, tokens⟩
  | unknown {expansion tokens} (c : Char) :
    Step ⟨expansion, .ready, .unknown c :: tokens⟩ ⟨expansion, .failed (.invalidMove c), tokens⟩
  | unopened {current tokens} (digits : List Char) :
    Step ⟨⟨current, []⟩, .ready, .closing digits :: tokens⟩
      ⟨⟨current, []⟩, .failed .unexpectedClose, tokens⟩
  | oversized {group sequence enclosing tokens} {digits : List Char}
      (hdigits : repeatCount? digits = none) :
    Step ⟨⟨group, sequence :: enclosing⟩, .ready, .closing digits :: tokens⟩
      ⟨⟨sequence, enclosing⟩, .failed (.repeatCount (String.ofList digits)), tokens⟩
  | overlong {group sequence enclosing tokens} {digits : List Char} {count : Nat}
      (hdigits : repeatCount? digits = some count)
      (hlimit : ¬ sequence.size + group.size * count ≤ maxMoves) :
    Step ⟨⟨group, sequence :: enclosing⟩, .ready, .closing digits :: tokens⟩
      ⟨⟨sequence, enclosing⟩, .failed (.repeatCount (toString count)), tokens⟩
  | closing {group sequence enclosing tokens} {digits : List Char} {count : Nat}
      (hdigits : repeatCount? digits = some count)
      (hlimit : sequence.size + group.size * count ≤ maxMoves) :
    Step ⟨⟨group, sequence :: enclosing⟩, .ready, .closing digits :: tokens⟩
      ⟨⟨sequence, enclosing⟩, .copying group count, tokens⟩
  | copy {current enclosing group tokens} (left : Nat) :
    Step ⟨⟨current, enclosing⟩, .copying group (left + 1), tokens⟩
      ⟨⟨current ++ group, enclosing⟩, .copying group left, tokens⟩
  | copied {expansion group tokens} :
    Step ⟨expansion, .copying group 0, tokens⟩ ⟨expansion, .ready, tokens⟩

/-- A reader comes to another one by some steps. -/
def Reaches : Reader → Reader → Prop :=
  Relation.ReflTransGen Step

/-- A reader that makes no more steps. -/
def IsFinal (reader : Reader) : Prop :=
  ∀ next, ¬ Step reader next

/-! ## The result -/

/-- What a reader that makes no more steps has come to. -/
def outcome (reader : Reader) : Except Error Expansion :=
  match reader.stage with
  | .failed error => .error error
  | _ => .ok reader.expansion

/-- What a reader will come to: the copies that are left are made, and then the tokens are taken
in. -/
def prospect (reader : Reader) : Except Error Expansion :=
  match reader.stage with
  | .ready => reader.expansion.run reader.tokens
  | .copying group left =>
    (Expansion.mk (appendCopies reader.expansion.current group left)
      reader.expansion.enclosing).run reader.tokens
  | .failed error => .error error

variable {reader next : Reader}

theorem prospect_eq_of_step (h : Step reader next) : reader.prospect = next.prospect := by
  cases h with
  | move move => rfl
  | opening => rfl
  | unknown c => rfl
  | unopened digits => rfl
  | oversized hdigits =>
    simp only [prospect, Expansion.run_cons, Expansion.step, Expansion.close, hdigits]
    rfl
  | overlong hdigits hlimit =>
    simp only [prospect, Expansion.run_cons, Expansion.step, Expansion.close, hdigits,
      if_neg hlimit]
    rfl
  | closing hdigits hlimit =>
    simp only [prospect, Expansion.run_cons, Expansion.step, Expansion.close, hdigits,
      if_pos hlimit]
    rfl
  | copy left => simp only [prospect, Expansion.appendCopies_succ]
  | copied => simp only [prospect, Expansion.appendCopies_zero]

/-- The steps that have been made do not change what a reader will come to. -/
theorem prospect_eq_of_reaches (h : Reaches reader next) : reader.prospect = next.prospect := by
  induction h with
  | refl => rfl
  | tail _ hstep ih => exact ih.trans (prospect_eq_of_step hstep)

/-- A reader makes a step unless it has failed or taken in everything. -/
theorem IsFinal.prospect_eq (h : reader.IsFinal) : reader.prospect = reader.outcome := by
  obtain ⟨⟨current, enclosing⟩, stage, tokens⟩ := reader
  cases stage with
  | failed error => rfl
  | copying group left =>
    cases left with
    | zero => exact absurd .copied (h _)
    | succ left => exact absurd (.copy left) (h _)
  | ready =>
    cases tokens with
    | nil => rfl
    | cons token tokens =>
      cases token with
      | move move => exact absurd (.move move) (h _)
      | opening => exact absurd .opening (h _)
      | unknown c => exact absurd (.unknown c) (h _)
      | closing digits =>
        cases enclosing with
        | nil => exact absurd (.unopened digits) (h _)
        | cons sequence enclosing =>
          cases hdigits : repeatCount? digits with
          | none => exact absurd (.oversized hdigits) (h _)
          | some count =>
            by_cases hlimit : sequence.size + current.size * count ≤ maxMoves
            · exact absurd (.closing hdigits hlimit) (h _)
            · exact absurd (.overlong hdigits hlimit) (h _)

/-- The steps that a reader makes before it takes the next token: one for each copy, and one behind
the last copy. -/
def Stage.steps : Stage → Nat
  | .copying _ left => left + 1
  | _ => 0

/-- A step takes a token, or leaves fewer steps before the next one. -/
theorem lex_of_step (h : Step reader next) :
    Prod.Lex (· < ·) (· < ·) (next.tokens.length, Stage.steps next.stage)
      (reader.tokens.length, Stage.steps reader.stage) := by
  cases h with
  | copy left => exact .right _ (Nat.lt_succ_self _)
  | copied => exact .right _ (Nat.lt_succ_self _)
  | _ => exact .left _ _ (Nat.lt_succ_self _)

/-- Every reader comes to an end. -/
theorem exists_final (reader : Reader) : ∃ final, Reaches reader final ∧ final.IsFinal := by
  by_cases hstep : ∃ next, Step reader next
  · obtain ⟨next, hstep⟩ := hstep
    obtain ⟨final, hreaches, hfinal⟩ := exists_final next
    exact ⟨final, .head hstep hreaches, hfinal⟩
  · exact ⟨reader, .refl, not_exists.1 hstep⟩
termination_by (reader.tokens.length, Stage.steps reader.stage)
decreasing_by exact lex_of_step hstep

/-! ## The sequences -/

/-- The sequences that a reader holds: those of its expansion, and the group that it copies. -/
def sequences (reader : Reader) : List (Array Move) :=
  match reader.stage with
  | .copying group _ => group :: reader.expansion.current :: reader.expansion.enclosing
  | _ => reader.expansion.current :: reader.expansion.enclosing

/-- The invariant of a reader of tokens with a given number of moves: what it holds and the moves to
come do not exceed the limit by more than these moves, and the copies that are left do not exceed
it at all. -/
structure Fits (moves : Nat) (reader : Reader) : Prop where
  size_le : ∀ sequence ∈ reader.sequences,
    sequence.size + reader.tokens.countP Token.isMove ≤ maxMoves + moves
  moves_le : reader.tokens.countP Token.isMove ≤ moves
  copies_le : ∀ group left, reader.stage = .copying group left →
    reader.expansion.current.size + group.size * left ≤ maxMoves

theorem fits_start (tokens : List Token) :
    (start tokens).Fits (tokens.countP Token.isMove) where
  size_le sequence hsequence := by
    obtain rfl : sequence = #[] := List.mem_singleton.1 hsequence
    change 0 + tokens.countP Token.isMove ≤ _
    omega
  moves_le := Nat.le_refl _
  copies_le group left hstage := by cases hstage

theorem Fits.step {moves : Nat} (hfits : reader.Fits moves) (h : Step reader next) :
    next.Fits moves := by
  obtain ⟨hsize, hmoves, hcopies⟩ := hfits
  cases h with
  | @move current enclosing tokens move =>
    have hcount : (Token.move move :: tokens).countP Token.isMove =
        tokens.countP Token.isMove + 1 := List.countP_cons_of_pos rfl
    have hmoves' : tokens.countP Token.isMove + 1 ≤ moves := hcount ▸ hmoves
    have hsize' : ∀ sequence ∈ current :: enclosing,
        sequence.size + (tokens.countP Token.isMove + 1) ≤ maxMoves + moves := hcount ▸ hsize
    obtain ⟨hcurrent, henclosing⟩ := List.forall_mem_cons.1 hsize'
    refine ⟨List.forall_mem_cons.2 ⟨?_, fun sequence hsequence => ?_⟩, Nat.le_of_succ_le hmoves',
      by rintro _ _ ⟨⟩⟩
    · -- the current sequence has the move that is not to come any more
      change (current.push move).size + tokens.countP Token.isMove ≤ _
      rw [Array.size_push]
      omega
    · change sequence.size + tokens.countP Token.isMove ≤ _
      have hold := henclosing sequence hsequence
      omega
  | opening =>
    refine ⟨List.forall_mem_cons.2 ⟨?_, hsize⟩, hmoves, by rintro _ _ ⟨⟩⟩
    exact Nat.add_le_add (Nat.zero_le maxMoves) hmoves
  | unknown c => exact ⟨hsize, hmoves, by rintro _ _ ⟨⟩⟩
  | unopened digits => exact ⟨hsize, hmoves, by rintro _ _ ⟨⟩⟩
  | oversized hdigits =>
    exact ⟨(List.forall_mem_cons.1 hsize).2, hmoves, by rintro _ _ ⟨⟩⟩
  | overlong hdigits hlimit =>
    exact ⟨(List.forall_mem_cons.1 hsize).2, hmoves, by rintro _ _ ⟨⟩⟩
  | closing hdigits hlimit =>
    refine ⟨hsize, hmoves, ?_⟩
    rintro _ _ ⟨⟩
    exact hlimit
  | @copy current enclosing group tokens left =>
    obtain ⟨hgroup, hrest⟩ := List.forall_mem_cons.1 hsize
    obtain ⟨-, henclosing⟩ := List.forall_mem_cons.1 hrest
    have hlonger : (current ++ group).size + group.size * left ≤ maxMoves := by
      have hall : current.size + group.size * (left + 1) ≤ maxMoves := hcopies _ _ rfl
      rw [Nat.mul_succ] at hall
      rw [Array.size_append]
      omega
    refine ⟨List.forall_mem_cons.2 ⟨hgroup, List.forall_mem_cons.2 ⟨?_, henclosing⟩⟩, hmoves, ?_⟩
    · exact Nat.add_le_add (Nat.le_of_add_right_le hlonger) hmoves
    · rintro _ _ ⟨⟩
      exact hlonger
  | copied => exact ⟨(List.forall_mem_cons.1 hsize).2, hmoves, by rintro _ _ ⟨⟩⟩

theorem Fits.of_reaches {moves : Nat} (hfits : reader.Fits moves) (h : Reaches reader next) :
    next.Fits moves := by
  induction h with
  | refl => exact hfits
  | tail _ hstep ih => exact ih.step hstep

/-! ## Tokens -/

theorem tokens_suffix_of_reaches (h : Reaches reader next) : next.tokens <:+ reader.tokens := by
  induction h with
  | refl => exact List.suffix_rfl
  | tail _ hstep ih =>
    refine List.IsSuffix.trans ?_ ih
    cases hstep with
    | copy left => exact List.suffix_rfl
    | copied => exact List.suffix_rfl
    | _ => exact List.suffix_cons _ _

end Reader

end LastLayer.Notation
