import ArubaCertRenewer.Regex
import Mathlib.Algebra.Order.Group.Int
import Mathlib.Algebra.Ring.Int.Defs

/- What a match weighs.

   `w` gives each character a weight, which may be negative; `Weighs w r k` says that what `r`
   consumes, wherever it matches, weighs at most `k`. A loop is bounded when a round of it weighs
   nothing. -/
namespace PyText

/-- The weight of a text. -/
def weight (w : Char → Int) (t : Text) : Int := (t.map w).sum

section weight
variable {w : Char → Int} {t u : Text}

@[simp] theorem weight_nil : weight w [] = 0 := rfl

@[simp] theorem weight_cons (c : Char) : weight w (c :: t) = w c + weight w t := rfl

@[simp] theorem weight_append : weight w (t ++ u) = weight w t + weight w u := by
  rw [weight, List.map_append, List.sum_append]
  rfl

end weight

namespace Regex

def Weighs (w : Char → Int) (r : Regex) (k : Int) : Prop :=
  ∀ s, ∀ s' ∈ results r s, ∃ m, s.rest = m ++ s'.rest ∧ weight w m ≤ k

namespace Weighs

variable {w : Char → Int} {r a b : Regex} {j k : Int}

theorem mono (h : Weighs w r j) (hle : j ≤ k) : Weighs w r k := by
  intro s s' hs
  obtain ⟨m, hm, hw⟩ := h s s' hs
  exact ⟨m, hm, hw.trans hle⟩

theorem empty : Weighs w empty 0 := by
  intro s s' hs
  rw [List.mem_singleton.mp hs]
  exact ⟨[], rfl, le_refl _⟩

theorem char {p : Char → Bool} (hp : ∀ c, p c = true → w c ≤ k) : Weighs w (char p) k := by
  rintro ⟨before, rest, groups⟩ s' hs
  cases rest with
  | nil => cases hs
  | cons c t =>
    change s' ∈ if p c then [_] else [] at hs
    split at hs
    · next hc =>
      rw [List.mem_singleton.mp hs]
      refine ⟨[c], rfl, ?_⟩
      rw [weight_cons, weight_nil, add_zero]
      exact hp c hc
    · cases hs

theorem seq (ha : Weighs w a j) (hb : Weighs w b k) : Weighs w (seq a b) (j + k) := by
  intro s s' hs
  obtain ⟨mid, hmid, hs⟩ := List.mem_flatMap.mp hs
  obtain ⟨m, hm, hw⟩ := ha s mid hmid
  obtain ⟨n, hn, hv⟩ := hb mid s' hs
  refine ⟨m ++ n, ?_, ?_⟩
  · rw [hm, hn, List.append_assoc]
  · rw [weight_append]
    exact add_le_add hw hv

theorem alt (ha : Weighs w a k) (hb : Weighs w b k) : Weighs w (alt a b) k := by
  intro s s' hs
  obtain hs | hs := List.mem_append.mp hs
  · exact ha s s' hs
  · exact hb s s' hs

theorem opt (h : Weighs w r k) (hk : 0 ≤ k) : Weighs w (opt r) k := alt h (empty.mono hk)

/-- The rounds of a loop: each weighs nothing, so all of them do. -/
theorem loop {greedy : Bool} (h : Weighs w r 0) (n : Nat) :
    ∀ s, ∀ s' ∈ loop (results r) greedy n s, ∃ m, s.rest = m ++ s'.rest ∧ weight w m ≤ 0 := by
  induction n with
  | zero =>
    intro s s' hs
    rw [List.mem_singleton.mp hs]
    exact ⟨[], rfl, le_refl _⟩
  | succ n ih =>
    intro s s' hs
    have hcases : s' = s ∨ s' ∈ (results r s).flatMap fun t =>
        if t.rest.length < s.rest.length then Regex.loop (results r) greedy n t else [] := by
      rw [Regex.loop] at hs
      cases greedy with
      | true => exact (List.mem_append.mp hs).symm.imp List.mem_singleton.mp id
      | false => exact List.mem_cons.mp hs
    obtain rfl | hs := hcases
    · exact ⟨[], rfl, le_refl _⟩
    · obtain ⟨mid, hmid, hs⟩ := List.mem_flatMap.mp hs
      split at hs
      · obtain ⟨m, hm, hw⟩ := h s mid hmid
        obtain ⟨m', hm', hw'⟩ := ih mid s' hs
        refine ⟨m ++ m', ?_, ?_⟩
        · rw [hm, hm', List.append_assoc]
        · rw [weight_append]
          exact add_nonpos hw hw'
      · cases hs

theorem star {greedy : Bool} (h : Weighs w r 0) : Weighs w (star greedy r) 0 :=
  fun s => loop h s.rest.length s

/-- A loop of at least one round weighs what its first round does. -/
theorem plus (h : Weighs w r k) (hk : k ≤ 0) : Weighs w (plus r) k := by
  have hstar : Weighs w (Regex.star true r) 0 := star (h.mono hk)
  have hseq := seq h hstar
  rwa [add_zero] at hseq

theorem lit (t : Text) : Weighs w (lit t) (weight w t) := by
  have hchar : ∀ c, Weighs w (Regex.char (· == c)) (w c) := by
    intro c
    apply char
    intro d hd
    rw [beq_iff_eq.mp hd]
  induction t with
  | nil => exact empty
  | cons c t ih =>
    cases t with
    | nil => exact (hchar c).mono (by simp)
    | cons d t => exact seq (hchar c) ih

end Weighs
end Regex

open Regex

/-- A text that a pattern matches whole weighs no more than the pattern. -/
theorem weight_le_of_fullmatch {w : Char → Int} {r : Regex} {k : Int} {t : Text}
    (h : Weighs w r k) (hmatch : fullmatch r t = true) : weight w t ≤ k := by
  obtain ⟨s, hs, hend⟩ := List.any_eq_true.mp hmatch
  obtain ⟨m, hm, hw⟩ := h _ s hs
  rw [List.isEmpty_iff.mp hend, List.append_nil] at hm
  rw [show t = m from hm]
  exact hw

end PyText
