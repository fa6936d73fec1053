/-!
# Ranges — sets of code points as sorted tables

A table lists the first and the last code point of each range, in ascending order. `covers` stops at the
first range that starts beyond the code point asked for, which is right for ordered tables: that is
`covers_eq_true_iff`.
-/

namespace MonkeyTokens

namespace Text

/-- Ranges of code points, each by its first and its last member. -/
abbrev Ranges := List (Nat × Nat)

namespace Ranges

/-- Each range is a range, and ends before the next one starts. -/
def ordered : Ranges → Bool
  | [] => true
  | [(lo, hi)] => lo ≤ hi
  | (lo, hi) :: (lo', hi') :: rest => lo ≤ hi && hi < lo' && ordered ((lo', hi') :: rest)

/-- The code point lies in a range of the table. -/
def covers : Ranges → Nat → Bool
  | [], _ => false
  | (lo, hi) :: rest, n => if n < lo then false else n ≤ hi || covers rest n

theorem ordered_tail {r : Nat × Nat} {rest : Ranges} (h : ordered (r :: rest) = true) :
    ordered rest = true := by
  cases rest with
  | nil => rfl
  | cons s rest =>
      simp only [ordered, Bool.and_eq_true] at h
      exact h.2

theorem le_of_ordered_cons {r : Nat × Nat} {rest : Ranges} (h : ordered (r :: rest) = true) :
    r.1 ≤ r.2 := by
  cases rest with
  | nil => simpa [ordered] using h
  | cons s rest =>
      simp only [ordered, Bool.and_eq_true, decide_eq_true_eq] at h
      exact h.1.1

theorem lt_of_ordered_cons {r s : Nat × Nat} {rest : Ranges} (h : ordered (r :: rest) = true)
    (hs : s ∈ rest) : r.2 < s.1 := by
  induction rest generalizing r with
  | nil => cases hs
  | cons t rest ih =>
      have ht : r.2 < t.1 := by
        simp only [ordered, Bool.and_eq_true, decide_eq_true_eq] at h
        exact h.1.2
      cases List.mem_cons.1 hs with
      | inl he => exact he ▸ ht
      | inr hmem =>
          have htail := ordered_tail h
          have hlt := ih htail hmem
          have hle := le_of_ordered_cons htail
          omega

theorem covers_eq_true_iff {t : Ranges} (h : t.ordered = true) (n : Nat) :
    t.covers n = true ↔ ∃ r ∈ t, r.1 ≤ n ∧ n ≤ r.2 := by
  induction t with
  | nil => simp [covers]
  | cons r rest ih =>
      simp only [covers, List.mem_cons, exists_eq_or_imp]
      split
      case isTrue hlt =>
          constructor
          · intro hf
            cases hf
          · rintro (hr | ⟨s, hs, hn⟩)
            · omega
            · have hrs := lt_of_ordered_cons h hs
              have hle := le_of_ordered_cons h
              omega
      case isFalse hge =>
          rw [Bool.or_eq_true, ih (ordered_tail h), decide_eq_true_eq]
          constructor
          · exact Or.imp_left fun hn => ⟨by omega, hn⟩
          · exact Or.imp_left fun hn => hn.2

end Ranges

end Text

end MonkeyTokens
