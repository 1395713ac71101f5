import ArubaCertRenewer.Regex
import Mathlib.Computability.Language

/- The language of a pattern, and that the matcher decides it.

   Wherever the matcher gets to from a position, it has read a text of the pattern's
   language; and where the rest begins with a text of the language of a pattern without
   anchors, it gets behind it. So `fullmatch` decides membership, whatever the order in
   which the choices are tried. -/
namespace PyText
open scoped Computability

section kleene
variable {α : Type*} [KleeneAlgebra α]

end kleene

namespace Regex

/-- No anchor occurs in the pattern. -/
def anchorFree : Regex → Bool
  | empty | char _ => true
  | lineStart | lineEnd | textStart | textEnd => false
  | seq a b | alt a b => anchorFree a && anchorFree b
  | star _ r | group _ r => anchorFree r

section loop
variable {step : Pos → List Pos} {greedy : Bool} {n : Nat} {s s' : Pos}

end loop

section patterns
variable {p : Char → Bool} {r : Regex} {t : Text}

@[simp] theorem anchorFree_seqs {rs : List Regex} : (seqs rs).anchorFree = rs.all anchorFree := by
  induction rs with
  | nil => rfl
  | cons r rs ih =>
    cases rs with
    | nil => simp [seqs]
    | cons r' rs =>
      change (r.anchorFree && (seqs (r' :: rs)).anchorFree) = _
      rw [ih]
      rfl

@[simp] theorem anchorFree_lit {word : Text} : (lit word).anchorFree = true := by
  simp [lit, anchorFree]

end patterns
end Regex

open Regex

end PyText
