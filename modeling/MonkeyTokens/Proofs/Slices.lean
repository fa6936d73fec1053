import MonkeyTokens.Proofs.Positions

/-!
# Slices — the text between two places of one walk

A slice may be cut from any position up to the cursor, and so from any that the cursor has stood on, since no walk goes
back. Moving by bytes leads into characters, so such a position need not be a boundary: the slice has the bytes between
its two ends where both of them are boundaries, and no bytes at all where one of them is not. Main statements:

- `Source.bytes_of_slice?`, `Source.textBetween_iff`: a slice in terms of the bytes of the source;
- `Placed.exists_walk_through`: a cursor may have stood on every position up to its own;
- `exists_sliceFrom_of_isBoundary`: between boundaries there is a slice of the source;
- `slices_of_one_walk`: which slices a walk allows, what they are, and how they meet.
-/

namespace MonkeyTokens

/-! ## Slices as bytes -/

namespace Source

variable {source other : Source} {start stop : Nat} {text : String}

/-- A source is known by its bytes. -/
theorem bytes_inj : source.bytes = other.bytes ↔ source = other := by
  constructor
  · intro h
    rw [← toList_data_toByteArray, ← toList_data_toByteArray] at h
    exact String.toByteArray_inj.1 (ByteArray.ext (Array.toList_inj.1 h))
  · exact congrArg bytes

/-- The bytes of a slice are those of the source between its ends. -/
theorem bytes_of_slice? :
    source.slice? start stop = some text → bytes text = (source.bytes.take stop).drop start := by
  intro h
  rcases slice?_eq_some_iff.1 h with ⟨pre, post, hcut, rfl, rfl⟩
  -- The slice ends behind `pre` and the text, and starts behind `pre`.
  rw [bytes, bytes, hcut, List.flatMap_append, ← Reading.length_flatMap_encode (pre ++ text.toList),
    List.take_left, List.flatMap_append, ← Reading.length_flatMap_encode pre, List.drop_left]

/-- The text that a cut from `start` up to `stop` has to yield: its bytes are those of the source between the two, or
it is empty, where one of the two lies inside a character. -/
structure TextBetween (source : Source) (start stop : Nat) (text : String) : Prop where
  bytes_eq : source.IsBoundary start → source.IsBoundary stop →
    bytes text = (source.bytes.take stop).drop start
  eq_empty : ¬ (source.IsBoundary start ∧ source.IsBoundary stop) → text = ""

/-- There is one such text, and a slice finds it. -/
theorem textBetween_iff (h : start ≤ stop) :
    source.TextBetween start stop text ↔ text = (source.slice? start stop).getD "" := by
  cases hslice : source.slice? start stop with
  | some found =>
      rcases isSome_slice?.1 (Option.isSome_of_eq_some hslice) with ⟨_, hstart, hstop⟩
      have hfound := bytes_of_slice? hslice
      rw [Option.getD_some]
      constructor
      · intro htext
        exact bytes_inj.1 ((htext.bytes_eq hstart hstop).trans hfound.symm)
      · rintro rfl
        exact ⟨fun _ _ => hfound, fun hinside => absurd ⟨hstart, hstop⟩ hinside⟩
  | none =>
      have hinside : ¬ (source.IsBoundary start ∧ source.IsBoundary stop) := by
        intro hboundaries
        have hsome := isSome_slice?.2 ⟨h, hboundaries⟩
        rw [hslice] at hsome
        cases hsome
      rw [Option.getD_none]
      constructor
      · exact fun htext => htext.eq_empty hinside
      · rintro rfl
        exact ⟨fun hstart hstop => absurd ⟨hstart, hstop⟩ hinside, fun _ => rfl⟩

end Source

/-! ## Slices up to a cursor -/

namespace Cursor

variable {c : Cursor} {start i : Nat}

/-- Up to a cursor, there is a slice from no position beyond it and from every other one. -/
theorem exists_sliceFrom_iff_le : (∃ text, c.sliceFrom start = .ok text) ↔ start ≤ c.pos := by
  constructor
  · rintro ⟨text, htext⟩
    apply Nat.le_of_not_lt
    intro hlt
    rw [sliceFrom_eq_error_iff.2 ⟨hlt, rfl⟩] at htext
    cases htext
  · exact fun hle => ⟨_, sliceFrom_of_le hle⟩

/-- Between boundaries there is a slice of the source. -/
theorem exists_sliceFrom_of_isBoundary :
    start ≤ c.pos → c.source.IsBoundary start → c.source.IsBoundary c.pos →
      ∃ text, c.source.slice? start c.pos = some text ∧ c.sliceFrom start = .ok text := by
  intro hle hstart hpos
  rcases Option.isSome_iff_exists.1 (Source.isSome_slice?.2 ⟨hle, hstart, hpos⟩) with ⟨text, htext⟩
  refine ⟨text, htext, ?_⟩
  rw [sliceFrom_of_le hle, htext, Option.getD_some]

/-- Slices between boundaries of one source meet in one. -/
theorem exists_sliceFrom_append {d : Cursor} (hsource : d.source = c.source) :
    start ≤ c.pos → c.pos ≤ d.pos →
      c.source.IsBoundary start → c.source.IsBoundary c.pos → c.source.IsBoundary d.pos →
      ∃ x y, c.sliceFrom start = .ok x ∧ d.sliceFrom c.pos = .ok y ∧ d.sliceFrom start = .ok (x ++ y) := by
  intro hle hle' hi hj hk
  rcases exists_sliceFrom_of_isBoundary hle hi hj with ⟨x, hx, hfirst⟩
  rw [← hsource] at hj hk
  rcases exists_sliceFrom_of_isBoundary hle' hj hk with ⟨y, hy, hsecond⟩
  rw [hsource] at hy
  refine ⟨x, y, hfirst, hsecond, ?_⟩
  rw [sliceFrom_of_le (Nat.le_trans hle hle'), hsource, Source.slice?_append hx hy, Option.getD_some]

/-- Some walk from the start of the source to the cursor stands on the position: one that moves byte by byte. -/
theorem Placed.exists_walk_through (h : c.Placed) :
    i ≤ c.pos → ∃ before after, ((ofSource c.source).walk before).pos = i ∧
      ((ofSource c.source).walk before).walk after = c := by
  intro hle
  have hstart := placed_ofSource c.source
  have hpos : ((ofSource c.source).advanceBy i).pos = i := by
    rw [hstart.pos_advanceBy, pos_ofSource, source_ofSource, Nat.zero_add]
    exact Nat.min_eq_left (Nat.le_trans hle h.pos_le)
  refine ⟨List.replicate i .advance, List.replicate (c.pos - i) .advance, ?_, ?_⟩
  · rw [walk_replicate_advance, hpos]
  · rw [walk_replicate_advance, walk_replicate_advance]
    apply ((hstart.advanceBy i).advanceBy _).eq_of_pos_eq h
    · rw [source_advanceBy, source_advanceBy, source_ofSource]
    · rw [(hstart.advanceBy i).pos_advanceBy, hpos, source_advanceBy, source_ofSource, Nat.add_sub_cancel' hle]
      exact Nat.min_eq_left h.pos_le

/-- A walk stands on three places one after the other. The slice from the first one up to the second one exists, and it
has the bytes between the two where they are boundaries, and none where they are not. Slices between boundaries meet in
one. There is a slice from a position exactly when some walk to the cursor stands on it, and a cursor in any state at
all refuses just the positions beyond its own. -/
theorem slices_of_one_walk (source : Source) (before between after : List Move) :
    let a := (ofSource source).walk before
    let b := a.walk between
    let c := b.walk after
    (∃ text, b.sliceFrom a.pos = .ok text ∧ ∀ t, source.TextBetween a.pos b.pos t ↔ t = text) ∧
      (source.IsBoundary a.pos → source.IsBoundary b.pos → source.IsBoundary c.pos →
        ∃ x y, b.sliceFrom a.pos = .ok x ∧ c.sliceFrom b.pos = .ok y ∧ c.sliceFrom a.pos = .ok (x ++ y)) ∧
      (∀ start, (∃ text, c.sliceFrom start = .ok text) ↔ ∃ upto rest,
        ((ofSource source).walk upto).pos = start ∧ ((ofSource source).walk upto).walk rest = c) ∧
      ∀ (d : Cursor) (start : Nat) (fault : Fault),
        d.sliceFrom start = .error fault ↔ d.pos < start ∧ fault = .sliceBeyond start d.pos := by
  intro a b c
  have ha : a.Placed := (placed_ofSource source).walk before
  have hb : b.Placed := ha.walk between
  have hc : c.Placed := hb.walk after
  have hsource_a : a.source = source := (source_walk _ _).trans (source_ofSource source)
  have hsource_b : b.source = source := (source_walk _ _).trans hsource_a
  have hsource_c : c.source = source := (source_walk _ _).trans hsource_b
  have hab : a.pos ≤ b.pos := ha.pos_le_pos_walk between
  have hbc : b.pos ≤ c.pos := hb.pos_le_pos_walk after
  refine ⟨⟨_, sliceFrom_of_le hab, fun t => ?_⟩, fun hi hj hk => ?_, fun start => ?_,
    fun d start fault => sliceFrom_eq_error_iff⟩
  · rw [hsource_b]
    exact Source.textBetween_iff hab
  · rw [← hsource_b] at hi hj hk
    exact exists_sliceFrom_append (hsource_c.trans hsource_b.symm) hab hbc hi hj hk
  · rw [exists_sliceFrom_iff_le]
    constructor
    · intro hle
      rw [← hsource_c]
      exact hc.exists_walk_through hle
    · rintro ⟨upto, rest, rfl, hrest⟩
      rw [← hrest]
      exact ((placed_ofSource source).walk upto).pos_le_pos_walk rest

/-- Through both characters by bytes, and over one more: what the three cuts hold. -/
theorem slices_of_one_walk_sample :
    let a := (ofSource "né€!").walk [.advance]
    let b := a.walk [.advance, .advanceChar, .eatWhile fun x => 0x80 ≤ x]
    let c := b.walk [.advanceChar]
    (Source.IsBoundary "né€!" a.pos ∧ Source.IsBoundary "né€!" b.pos ∧ Source.IsBoundary "né€!" c.pos) ∧
      ∃ x y, b.sliceFrom a.pos = .ok x ∧ c.sliceFrom b.pos = .ok y ∧ c.sliceFrom a.pos = .ok (x ++ y) := by
  intro a b c
  have hboundaries : Source.IsBoundary "né€!" a.pos ∧ Source.IsBoundary "né€!" b.pos ∧
      Source.IsBoundary "né€!" c.pos := by
    decide +kernel
  rcases slices_of_one_walk "né€!" [.advance] [.advance, .advanceChar, .eatWhile fun x => 0x80 ≤ x] [.advanceChar] with
    ⟨_, hmeet, _, _⟩
  exact ⟨hboundaries, hmeet hboundaries.1 hboundaries.2.1 hboundaries.2.2⟩

-- One byte into a character: that byte is passed, but it is no text.
example : ((ofSource "é").walk [.advance]).sliceFrom 0 = .ok "" := by
  rfl

end Cursor

end MonkeyTokens
