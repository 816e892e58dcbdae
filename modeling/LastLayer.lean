import LastLayer.Main
import LastLayer.Proofs.Arrangement
import LastLayer.Proofs.CaseNumbers
import LastLayer.Proofs.Drawing
import LastLayer.Proofs.Entries
import LastLayer.Proofs.Fields
import LastLayer.Proofs.Groups
import LastLayer.Proofs.Listing
import LastLayer.Proofs.NetTurns
import LastLayer.Proofs.Notation.Bounds
import LastLayer.Proofs.Notation.Canonical
import LastLayer.Proofs.Orientation
import LastLayer.Proofs.Preview
import LastLayer.Proofs.Repetition
import LastLayer.Proofs.Tilts
