import MonkeyTokens.Source.Span

/-!
# Hull — merging spans is the smallest span around them

Merging compares the ends of two spans and looks at nothing else, so the order of spans by their ends says all
about it: the merged span lies in a third one exactly when both spans do. The laws of merging follow from this
one fact, for spans that end before they start as well. Where spans hold positions, lying in a span by the ends
is lying in it by the positions. Main statements:

- `merge_within_iff`, `hull_within_iff`: what lies around a merged span lies around the spans merged;
- `eq_of_within_iff`: a span is known by the spans around it;
- `hull_eq_of_mem_iff`: the order of the spans does not matter, nor how often each occurs;
- `within_iff_contains`: around a span that holds a position lies what contains its positions;
- `merge_is_covering_hull`: all of this for any list of spans.
-/

namespace MonkeyTokens

namespace Span

variable {s t c : Span}

/-! ## The order by the ends -/

/-- The ends of the span are not outside those of the other one. -/
structure Within (s c : Span) : Prop where
  start_le : c.start ≤ s.start
  stop_le : s.stop ≤ c.stop

theorem Within.refl (s : Span) : s.Within s :=
  ⟨Nat.le_refl _, Nat.le_refl _⟩

/-- A span is known by the spans around it. -/
theorem eq_of_within_iff : (∀ c, s.Within c ↔ t.Within c) → s = t := by
  intro h
  have hst : s.Within t := (h t).2 (.refl t)
  have hts : t.Within s := (h s).1 (.refl s)
  cases s
  cases t
  rw [mk.injEq]
  exact ⟨Nat.le_antisymm hts.start_le hst.start_le, Nat.le_antisymm hst.stop_le hts.stop_le⟩

/-! ## Merging -/

/-- Around a merged span lies what lies around both spans. -/
theorem merge_within_iff : (s.merge t).Within c ↔ s.Within c ∧ t.Within c := by
  constructor
  · rintro ⟨hstart, hstop⟩
    rcases Nat.le_min.1 hstart with ⟨hs, ht⟩
    rcases Nat.max_le.1 hstop with ⟨hs', ht'⟩
    exact ⟨⟨hs, hs'⟩, ⟨ht, ht'⟩⟩
  · rintro ⟨hs, ht⟩
    exact ⟨Nat.le_min.2 ⟨hs.start_le, ht.start_le⟩, Nat.max_le.2 ⟨hs.stop_le, ht.stop_le⟩⟩

theorem merge_assoc (s t u : Span) : (s.merge t).merge u = s.merge (t.merge u) := by
  apply eq_of_within_iff
  intro c
  simp only [merge_within_iff, and_assoc]

theorem merge_comm (s t : Span) : s.merge t = t.merge s := by
  apply eq_of_within_iff
  intro c
  rw [merge_within_iff, merge_within_iff, and_comm]

theorem merge_self (s : Span) : s.merge s = s := by
  apply eq_of_within_iff
  intro c
  rw [merge_within_iff, and_self]

/-! ## Merging a list -/

/-- The spans of a list that is not empty, merged from the first one on. -/
def hull (s : Span) (ss : List Span) : Span :=
  ss.foldl merge s

theorem hull_within_iff (s : Span) (ss : List Span) :
    (hull s ss).Within c ↔ ∀ t ∈ s :: ss, t.Within c := by
  induction ss generalizing s with
  | nil => simp [hull]
  | cons t ss ih =>
      calc
        (hull s (t :: ss)).Within c ↔ ∀ u ∈ s.merge t :: ss, u.Within c := ih (s.merge t)
        _ ↔ (s.Within c ∧ t.Within c) ∧ ∀ u ∈ ss, u.Within c := by
              rw [List.forall_mem_cons, merge_within_iff]
        _ ↔ ∀ u ∈ s :: t :: ss, u.Within c := by
              rw [List.forall_mem_cons, List.forall_mem_cons, and_assoc]

/-- Each of the spans lies in the merged one. -/
theorem within_hull {ss : List Span} (ht : t ∈ s :: ss) : t.Within (hull s ss) :=
  (hull_within_iff s ss).1 (.refl _) t ht

/-- Two lists of the same spans are merged into the same span, whatever the order of the spans is and however often
each occurs. -/
theorem hull_eq_of_mem_iff {ss ts : List Span} :
    (∀ u, u ∈ s :: ss ↔ u ∈ t :: ts) → hull s ss = hull t ts := by
  intro hmem
  apply eq_of_within_iff
  intro c
  simp only [hull_within_iff, hmem]

/-! ## Positions -/

theorem contains_iff {i : Nat} : s.contains i = true ↔ s.start ≤ i ∧ i < s.stop := by
  simp [contains]

/-- Around a span that holds a position lies what contains all its positions. A span that holds none is contained
everywhere, wherever its ends are. -/
theorem within_iff_contains (h : s.start < s.stop) :
    s.Within c ↔ ∀ i, s.contains i = true → c.contains i = true := by
  constructor
  · intro hwithin i hi
    rcases contains_iff.1 hi with ⟨hstart, hstop⟩
    exact contains_iff.2
      ⟨Nat.le_trans hwithin.start_le hstart, Nat.lt_of_lt_of_le hstop hwithin.stop_le⟩
  · intro hall
    -- The first position and the last one show where the ends are.
    have hfirst := contains_iff.1 (hall s.start (contains_iff.2 ⟨Nat.le_refl _, h⟩))
    have hlast := contains_iff.1 (hall (s.stop - 1) (contains_iff.2 ⟨by omega, by omega⟩))
    exact ⟨hfirst.1, by omega⟩

/-- A span that is not reversed is as long as the list of its positions. -/
theorem exists_positions (h : s.start ≤ s.stop) :
    ∃ positions : List Nat, positions.Nodup ∧ (∀ i, i ∈ positions ↔ s.contains i = true) ∧
      s.length = .ok positions.length := by
  refine ⟨List.range' s.start (s.stop - s.start), List.nodup_range', fun i => ?_, ?_⟩
  · rw [List.mem_range'_1, contains_iff, Nat.add_sub_cancel' h]
  · rw [length, if_pos h, List.length_range']

theorem start_lt_stop_hull {ss : List Span} (h : s.start < s.stop) :
    (hull s ss).start < (hull s ss).stop := by
  have hfirst : s.Within (hull s ss) := within_hull List.mem_cons_self
  exact Nat.lt_of_le_of_lt hfirst.start_le (Nat.lt_of_lt_of_le h hfirst.stop_le)

/-- Merging is associative, commutative and idempotent for all spans, so a list of spans is merged into one span
that depends on its members alone. When each of them holds a position, a span contains the positions of all of them
exactly when it contains those of the merged span, and the merged span has a length, which is the number of its
positions. -/
theorem merge_is_covering_hull :
    (∀ s t u : Span, (s.merge t).merge u = s.merge (t.merge u)) ∧
      (∀ s t : Span, s.merge t = t.merge s) ∧
      (∀ s : Span, s.merge s = s) ∧
      (∀ (s t : Span) (ss ts : List Span), (∀ u, u ∈ s :: ss ↔ u ∈ t :: ts) → hull s ss = hull t ts) ∧
      ∀ (s : Span) (ss : List Span), (∀ t ∈ s :: ss, t.start < t.stop) →
        (∀ c : Span, (∀ t ∈ s :: ss, ∀ i, t.contains i = true → c.contains i = true) ↔
          ∀ i, (hull s ss).contains i = true → c.contains i = true) ∧
        (hull s ss).start < (hull s ss).stop ∧
        ∃ positions : List Nat, positions.Nodup ∧
          (∀ i, i ∈ positions ↔ (hull s ss).contains i = true) ∧
          (hull s ss).length = .ok positions.length := by
  refine ⟨merge_assoc, merge_comm, merge_self, fun s t ss ts => hull_eq_of_mem_iff, fun s ss hproper => ?_⟩
  have hlt : (hull s ss).start < (hull s ss).stop :=
    start_lt_stop_hull (hproper s List.mem_cons_self)
  refine ⟨fun c => ?_, hlt, exists_positions (Nat.le_of_lt hlt)⟩
  rw [← within_iff_contains hlt, hull_within_iff]
  -- Each span of the list holds a position, so for it both orders are the same.
  exact forall₂_congr fun t ht => (within_iff_contains (hproper t ht)).symm

/-- Three spans, the same in another order with one of them twice, and a span around them. -/
theorem merge_is_covering_hull_sample :
    hull ⟨4, 8⟩ [⟨1, 2⟩, ⟨6, 9⟩] = hull ⟨6, 9⟩ [⟨4, 8⟩, ⟨6, 9⟩, ⟨1, 2⟩] ∧
      (∀ i, (hull ⟨4, 8⟩ [⟨1, 2⟩, ⟨6, 9⟩]).contains i = true → contains ⟨0, 9⟩ i = true) ∧
      ∃ positions : List Nat, positions.Nodup ∧
        (hull ⟨4, 8⟩ [⟨1, 2⟩, ⟨6, 9⟩]).length = .ok positions.length := by
  rcases merge_is_covering_hull with ⟨_, _, _, hmembers, hcover⟩
  have hsame (u : Span) : u ∈ [⟨4, 8⟩, ⟨1, 2⟩, ⟨6, 9⟩] ↔ u ∈ [⟨6, 9⟩, ⟨4, 8⟩, ⟨6, 9⟩, ⟨1, 2⟩] := by
    simp only [List.mem_cons, List.not_mem_nil, or_false]
    grind
  have hproper : ∀ t ∈ [(⟨4, 8⟩ : Span), ⟨1, 2⟩, ⟨6, 9⟩], t.start < t.stop ∧ t.stop ≤ 9 := by decide
  rcases hcover ⟨4, 8⟩ [⟨1, 2⟩, ⟨6, 9⟩] fun t ht => (hproper t ht).1 with
    ⟨haround, _, positions, hnodup, _, hlength⟩
  refine ⟨hmembers _ _ _ _ hsame, (haround ⟨0, 9⟩).1 fun t ht i hi => ?_, positions, hnodup, hlength⟩
  have hstop := (contains_iff.1 hi).2
  exact contains_iff.2 ⟨Nat.zero_le i, Nat.lt_of_lt_of_le hstop (hproper t ht).2⟩

-- A span without positions is contained everywhere, and merging goes by its ends all the same.
example : (hull ⟨0, 1⟩ [⟨5, 5⟩]).contains 3 = true ∧ ∀ i, contains ⟨5, 5⟩ i = false := by
  refine ⟨by decide, fun i => ?_⟩
  rw [← Bool.not_eq_true, contains_iff]
  exact fun h => Nat.lt_irrefl _ (Nat.lt_of_le_of_lt h.1 h.2)

end Span

end MonkeyTokens
