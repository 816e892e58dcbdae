import LastLayer.Proofs.Agreement
import LastLayer.Proofs.Notation.Grammar
import Mathlib.Tactic.TFAE

/-!
# Telling cubes apart

A cube is written as one line for each slot. A line starts with the position of the cubie, at a fixed
width, and goes on with four characters for each sticker, so it can be read back
(`Cubie.text_injective`); and since no line holds a line break, the lines can be told apart as well
(`Cube.eq_of_text_eq`).

On reachable cubes the agreement of cubes, which compares cubies by position and in one direction
only, is therefore as exact as their texts: the last statement says that two cubes agree just if they
hold the same cubies in the same slots, and just if they are written the same.
-/

namespace LastLayer

/-! ## The line of a cubie -/

theorem Face.letter_injective {first second : Face} (h : first.letter = second.letter) :
    first = second := by
  cases first <;> cases second <;> first | rfl | exact absurd h (by decide)

theorem Color.letter_injective {first second : Color} (h : first.letter = second.letter) :
    first = second := by
  cases first <;> cases second <;> first | rfl | exact absurd h (by decide)

namespace Position

theorem text_injective {first second : Position} (hfirst : first ∈ grid) (hsecond : second ∈ grid)
    (h : first.text = second.text) : first = second := by
  have hnodup : (grid.map text).Nodup := by decide
  exact List.inj_on_of_nodup_map hnodup hfirst hsecond h

theorem length_text : ∀ position ∈ grid, position.text.toList.length = 10 := by decide

theorem newline_notMem_text : ∀ position ∈ grid, '\n' ∉ position.text.toList := by decide

end Position

namespace Facelets

theorem mem_toList {facelets : Facelets} {face : Face} {color : Color} :
    (face, color) ∈ facelets.toList ↔ facelets.get face = some color := by
  rw [toList, List.mem_filterMap]
  constructor
  · rintro ⟨source, -, hsource⟩
    obtain ⟨shown, hshown, hsame⟩ := Option.map_eq_some_iff.1 hsource
    obtain ⟨rfl, rfl⟩ := Prod.mk.inj hsame
    exact hshown
  · intro h
    exact ⟨face, Face.mem_all face, by rw [sticker?, h, Option.map_some]⟩

theorem toList_injective {first second : Facelets} (h : first.toList = second.toList) :
    first = second := by
  refine ext_get fun face => Option.ext fun color => ?_
  rw [← mem_toList, ← mem_toList, h]

end Facelets

namespace Cubie

/-- The characters that are written for some stickers. -/
def stickerChars (stickers : List (Face × Color)) : List Char :=
  stickers.flatMap fun sticker => [' ', sticker.1.letter, ':', sticker.2.letter]

theorem stickerChars_injective {first second : List (Face × Color)}
    (h : stickerChars first = stickerChars second) : first = second := by
  induction first generalizing second with
  | nil =>
    cases second with
    | nil => rfl
    | cons _ _ => cases h
  | cons sticker first ih =>
    cases second with
    | nil => cases h
    | cons sticker' second =>
      -- every sticker takes four characters, so the first ones can be compared by themselves
      rw [stickerChars, stickerChars, List.flatMap_cons, List.flatMap_cons] at h
      obtain ⟨hhead, htail⟩ := List.append_inj h rfl
      rw [ih htail]
      simp only [List.cons.injEq] at hhead
      obtain ⟨-, hface, -, hcolor, -⟩ := hhead
      rw [Prod.ext (Face.letter_injective hface) (Color.letter_injective hcolor)]

theorem toList_text (cubie : Cubie) :
    cubie.text.toList = cubie.position.text.toList ++ stickerChars cubie.facelets.toList := by
  rw [text, String.toList_append, String.toList_join, List.flatMap_map, stickerChars]
  simp [stickerText]

/-- The line of a cubie tells its position and its stickers. -/
theorem text_injective {first second : Cubie} (hfirst : first.position ∈ Position.grid)
    (hsecond : second.position ∈ Position.grid)
    (h : first.text.toList = second.text.toList) : first = second := by
  rw [toList_text, toList_text] at h
  have hlength : first.position.text.toList.length = second.position.text.toList.length := by
    rw [Position.length_text _ hfirst, Position.length_text _ hsecond]
  obtain ⟨hposition, hstickers⟩ := List.append_inj h hlength
  refine Cubie.ext ?_ (Facelets.toList_injective (stickerChars_injective hstickers))
  exact Position.text_injective hfirst hsecond (String.toList_inj.1 hposition)

theorem newline_notMem_text {cubie : Cubie} (h : cubie.position ∈ Position.grid) :
    '\n' ∉ cubie.text.toList := by
  rw [toList_text, List.mem_append, not_or]
  refine ⟨Position.newline_notMem_text _ h, ?_⟩
  rw [stickerChars, List.mem_flatMap]
  rintro ⟨⟨face, color⟩, -, hmem⟩
  cases face <;> cases color <;> exact absurd hmem (by decide)

/-- The lines of some cubies tell the cubies, one after the other. -/
theorem lines_injective {first second : List Cubie}
    (hfirst : ∀ cubie ∈ first, cubie.position ∈ Position.grid)
    (hsecond : ∀ cubie ∈ second, cubie.position ∈ Position.grid)
    (h : (first.flatMap fun cubie => cubie.text.toList ++ ['\n']) =
      second.flatMap fun cubie => cubie.text.toList ++ ['\n']) : first = second := by
  induction first generalizing second with
  | nil =>
    cases second with
    | nil => rfl
    | cons _ _ => simp at h
  | cons cubie first ih =>
    cases second with
    | nil => simp at h
    | cons cubie' second =>
      have hcubie := hfirst cubie List.mem_cons_self
      have hcubie' := hsecond cubie' List.mem_cons_self
      have hkind : ∀ {other : Cubie}, other.position ∈ Position.grid →
          ∀ c ∈ other.text.toList, (c != '\n') = true := by
        intro other hother c hc
        rw [bne_iff_ne]
        rintro rfl
        exact newline_notMem_text hother hc
      -- a line goes up to the first line break
      rw [List.flatMap_cons, List.flatMap_cons, List.append_assoc, List.append_assoc] at h
      obtain ⟨hline, hrest⟩ := Notation.append_injective_of_kind (hkind hcubie) (hkind hcubie')
        (by simp) (by simp) h
      rw [text_injective hcubie hcubie' hline,
        ih (fun other hother => hfirst other (.tail cubie hother))
          (fun other hother => hsecond other (.tail cubie' hother)) (List.cons.inj hrest).2]

end Cubie

/-! ## The text of a cube -/

namespace Cube

theorem toList_text (cube : Cube) :
    cube.text.toList = cube.cubies.flatMap fun cubie => cubie.text.toList ++ ['\n'] := by
  rw [text, String.toList_join, List.flatMap_map]
  simp

/-- Reachable cubes that are written the same are equal, slot for slot. -/
theorem eq_of_text_eq {cube other : Cube} (h : cube.Reachable) (hother : other.Reachable)
    (htext : cube.text = other.text) : cube = other := by
  rw [← String.toList_inj, toList_text, toList_text] at htext
  exact Cube.ext (Cubie.lines_injective (fun _ => h.position_mem_grid)
    (fun _ => hother.position_mem_grid) htext)

theorem agreesWith_iff_eq {cube other : Cube} (h : cube.Reachable) (hother : other.Reachable) :
    cube.agreesWith other = true ↔ cube = other := by
  constructor
  · exact eq_of_agreesWith h hother
  · rintro rfl
    exact h.agreesWith_self

/-- Reachable cubes agree, in one direction or the other, just if they hold the same cubies in the
same slots, and just if they are written the same. So agreement is an equivalence of reachable cubes,
and every move keeps it. -/
theorem agreement_is_exact :
    (∀ cube other : Cube, cube.Reachable → other.Reachable →
      [cube.agreesWith other = true, other.agreesWith cube = true,
        ∀ index, cube.slot index = other.slot index, cube.text = other.text].TFAE) ∧
    (Equivalence fun cube other : { cube : Cube // cube.Reachable } =>
      cube.val.agreesWith other.val = true) ∧
    ∀ cube other : Cube, cube.Reachable → other.Reachable → cube.agreesWith other = true →
      ∀ move : Move, (cube.apply move).agreesWith (other.apply move) = true := by
  refine ⟨?_, ⟨?_, ?_, ?_⟩, ?_⟩
  · intro cube other h hother
    tfae_have 1 ↔ 3 := by
      rw [agreesWith_iff_eq h hother]
      exact ⟨fun heq index => heq ▸ rfl, ext_slot⟩
    tfae_have 2 ↔ 3 := by
      rw [agreesWith_iff_eq hother h]
      exact ⟨fun heq index => heq ▸ rfl, fun hslot => (ext_slot hslot).symm⟩
    tfae_have 3 → 4 := fun hslot => congrArg text (ext_slot hslot)
    tfae_have 4 → 1 := fun htext =>
      (agreesWith_iff_eq h hother).2 (eq_of_text_eq h hother htext)
    tfae_finish
  · intro cube
    exact cube.property.agreesWith_self
  · intro cube other hagrees
    rw [agreesWith_iff_eq cube.property other.property] at hagrees
    rw [hagrees]
    exact other.property.agreesWith_self
  · intro cube other third hfirst hsecond
    rw [agreesWith_iff_eq cube.property other.property] at hfirst
    rwa [hfirst]
  · intro cube other h hother hagrees move
    rw [eq_of_agreesWith h hother hagrees]
    exact (hother.apply move).agreesWith_self

/-- The cubes after `r` and after `R M'` hold the same cubies, are written the same, agree both ways,
and go on agreeing. -/
theorem agreement_is_exact_for_wide_turn :
    let cube := solved.applyAll [⟨.r, .quarter⟩]
    let other := solved.applyAll [⟨.R, .quarter⟩, ⟨.M, .prime⟩]
    cube.Reachable ∧ other.Reachable ∧ cube.agreesWith other = true ∧
      other.agreesWith cube = true ∧ cube.text = other.text ∧
        (cube.apply ⟨.f, .half⟩).agreesWith (other.apply ⟨.f, .half⟩) = true := by
  intro cube other
  have h : cube.Reachable := Reachable.solved.applyAll _
  have hother : other.Reachable := Reachable.solved.applyAll _
  have hagrees : cube.agreesWith other = true := by decide +kernel
  obtain ⟨htfae, -, hmoves⟩ := agreement_is_exact
  have hall := htfae cube other h hother
  exact ⟨h, hother, hagrees, (hall.out 0 1).1 hagrees, (hall.out 0 3).1 hagrees,
    hmoves cube other h hother hagrees ⟨.f, .half⟩⟩

end Cube

end LastLayer
