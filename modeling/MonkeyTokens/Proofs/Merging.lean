import MonkeyTokens.Proofs.Partition

/-!
# Merging — the span over some tokens holds the source between them

Spans are merged by taking the earlier start and the later end. For any choice of tokens of one source, in any
order, this is the span from the first one of them to the last one, and the source holds there what `stretch`
puts together: the texts of these two and of all tokens between them, with the gaps. Main statements:

- `Source.length_of_textIn?`: a span with a text is as long as the text;
- `Laid.stretch_eq`: the stretch of tokens that stand one after the other is a slice;
- `laid_stream`: the tokens of a source stand one after the other;
- `exists_foldl`: what a fold keeps hold of, when it keeps to the first by some order;
- `merged_span_holds_stretch`: the merged span of any tokens of a source.
-/

namespace MonkeyTokens

/-- A span with a text is as long as the text. -/
theorem Source.length_of_textIn? {source : Source} {s : Span} {text : String} :
    s.textIn? source = some text → s.length = .ok (Source.size text) := by
  intro h
  rw [Span.textIn?, Span.lower_toRange, Span.upper_toRange] at h
  rcases slice?_eq_some_iff.1 h with ⟨pre, post, _, hstart, hstop⟩
  rw [Reading.width_append, ← size_eq_width, ← hstart] at hstop
  rw [Span.length, if_pos (by omega), hstop, Nat.add_sub_cancel_left]

/-! ## Tokens one after the other -/

/-- The texts of the tokens, with the source's own text in the gaps between them. -/
def stretch (source : Source) : List Located → Option String
  | [] => some ""
  | [x] => some x.token.text
  | x :: y :: xs => do
      let gap ← source.slice? x.span.stop y.span.start
      let rest ← stretch source (y :: xs)
      return x.token.text ++ gap ++ rest

/-- The tokens stand in the source, one after the other. -/
structure Laid (source : Source) (xs : List Located) : Prop where
  text_eq : ∀ x ∈ xs, x.span.textIn? source = some x.token.text
  ordered : xs.Pairwise fun x y => x.span.stop ≤ y.span.start

namespace Laid

variable {source : Source} {x y : Located} {xs ys : List Located}

theorem sublist (h : Laid source xs) : ys.Sublist xs → Laid source ys := by
  intro hys
  exact ⟨fun x hx => h.text_eq x (hys.subset hx), h.ordered.sublist hys⟩

/-- The source has text in the gap between two tokens. -/
theorem exists_gap (h : Laid source (x :: y :: xs)) :
    ∃ gap, source.slice? x.span.stop y.span.start = some gap := by
  have hx := Source.isSome_slice?.1 (Option.isSome_of_eq_some (h.text_eq x (by simp)))
  have hy := Source.isSome_slice?.1 (Option.isSome_of_eq_some (h.text_eq y (by simp)))
  have hle := List.rel_of_pairwise_cons h.ordered List.mem_cons_self
  exact Option.isSome_iff_exists.1 (Source.isSome_slice?.2 ⟨hle, hx.2.2, hy.2.1⟩)

/-- The stretch of the tokens is the slice from the start of the first one to the end of the last one. -/
theorem stretch_eq (h : Laid source xs) :
    xs.head? = some x → xs.getLast? = some y →
      ∃ text, stretch source xs = some text ∧
        source.slice? x.span.start y.span.stop = some text := by
  intro hx hy
  induction xs generalizing x with
  | nil => cases hx
  | cons z xs ih =>
      obtain rfl := Option.some.inj hx
      have htext : source.slice? z.span.start z.span.stop = some z.token.text :=
        h.text_eq z List.mem_cons_self
      cases xs with
      | nil =>
          obtain rfl := Option.some.inj hy
          exact ⟨_, rfl, htext⟩
      | cons w xs =>
          rcases h.exists_gap with ⟨gap, hgap⟩
          rcases ih (h.sublist (List.sublist_cons_self _ _)) rfl (by simpa using hy) with
            ⟨rest, hstretch, hrest⟩
          -- The text of the first token, the gap behind it and the stretch of the others meet.
          refine ⟨z.token.text ++ gap ++ rest, ?_, Source.slice?_append (Source.slice?_append htext hgap) hrest⟩
          simp [stretch, hgap, hstretch]

/-- Later tokens start later and end later. -/
theorem span_le (h : Laid source xs) {i j : Nat} (hi : i < xs.length) (hj : j < xs.length) :
    i ≤ j → xs[i].span.start ≤ xs[j].span.start ∧ xs[i].span.stop ≤ xs[j].span.stop := by
  intro hle
  rcases Nat.eq_or_lt_of_le hle with rfl | hlt
  · exact ⟨Nat.le_refl _, Nat.le_refl _⟩
  · have hnext := List.pairwise_iff_getElem.1 h.ordered i j hi hj hlt
    have hfirst := (Source.isSome_slice?.1 (Option.isSome_of_eq_some (h.text_eq _ (List.getElem_mem hi)))).1
    have hlast := (Source.isSome_slice?.1 (Option.isSome_of_eq_some (h.text_eq _ (List.getElem_mem hj)))).1
    exact ⟨Nat.le_trans hfirst hnext, Nat.le_trans hnext hlast⟩

end Laid

theorem laid_stream (source : Source) : Laid source (Scanner.ofSource source).stream := by
  rcases stream_cuts source with ⟨hstream, _, hcut⟩
  rw [hstream]
  refine ⟨fun x hx => ?_, hcut.partitions.ordered⟩
  rcases List.mem_append.1 hx with hx | hx
  · exact hcut.partitions.text_eq x hx
  · -- The end mark stands behind all characters, and holds none of them.
    obtain rfl := List.mem_singleton.1 hx
    refine Source.slice?_eq_some_iff.2 ⟨source.toList, [], ?_, ?_, ?_⟩ <;>
      simp [Located.eof, Token.eof, Span.point, Source.size_eq_width]

section Parts

variable {α : Type} {xs : List α} {lo hi : Nat}

theorem head?_drop_take (hle : lo ≤ hi) (hlt : hi < xs.length) :
    ((xs.take (hi + 1)).drop lo).head? = some xs[lo] := by
  rw [List.head?_drop, List.getElem?_take_of_lt (by omega), List.getElem?_eq_getElem]

theorem getLast?_drop_take (hle : lo ≤ hi) (hlt : hi < xs.length) :
    ((xs.take (hi + 1)).drop lo).getLast? = some xs[hi] := by
  rw [List.getLast?_drop, if_neg (by rw [List.length_take]; omega), List.getLast?_take]
  simp [hlt]

end Parts

/-! ## Folds -/

/-- A fold that holds of one index, and keeps to the first index by some order, ends up with the first of all
indices. -/
theorem exists_foldl {ι β : Type} {step : β → ι → β} (first : ι → ι → Prop) (holds : β → ι → Prop)
    (total : ∀ i j, first i j ∨ first j i) (trans : ∀ i j k, first i j → first j k → first i k)
    (keep : ∀ b i j, holds b i → first i j → holds (step b j) i)
    (move : ∀ b i j, holds b i → first j i → holds (step b j) j)
    (is : List ι) (b : β) (i : ι) (h : holds b i) :
    ∃ k ∈ i :: is, (∀ j ∈ i :: is, first k j) ∧ holds (is.foldl step b) k := by
  induction is generalizing b i with
  | nil =>
      have hself : first i i := (total i i).elim id id
      exact ⟨i, List.mem_cons_self, by simpa using hself, h⟩
  | cons j is ih =>
      rcases total i j with hij | hji
      · rcases ih (step b j) i (keep b i j h hij) with ⟨k, hk, hfirst, hholds⟩
        rcases List.forall_mem_cons.1 hfirst with ⟨hki, his⟩
        have hmem : k ∈ i :: j :: is := (List.mem_cons.1 hk).elim (by simp [·]) (by simp [·])
        exact ⟨k, hmem, List.forall_mem_cons.2 ⟨hki, List.forall_mem_cons.2 ⟨trans _ _ _ hki hij, his⟩⟩,
          hholds⟩
      · rcases ih (step b j) j (move b i j h hji) with ⟨k, hk, hfirst, hholds⟩
        have hki := trans _ _ _ (hfirst j List.mem_cons_self) hji
        exact ⟨k, List.mem_cons_of_mem i hk, List.forall_mem_cons.2 ⟨hki, hfirst⟩, hholds⟩

/-! ## Merged spans -/

section Merged

variable (source : Source)

/-- The span of the token at an index of the stream, where the end mark is the last one. -/
def spanAt (i : Fin (Scanner.ofSource source).stream.length) : Span :=
  ((Scanner.ofSource source).stream.get i).span

/-- The span that covers the tokens at the indices, merged from the first one on. -/
def mergedSpan (i : Fin (Scanner.ofSource source).stream.length)
    (is : List (Fin (Scanner.ofSource source).stream.length)) : Span :=
  (is.map (spanAt source)).foldl Span.merge (spanAt source i)

variable {source} (i : Fin (Scanner.ofSource source).stream.length)
  (is : List (Fin (Scanner.ofSource source).stream.length))

theorem spanAt_le {i j : Fin (Scanner.ofSource source).stream.length} :
    i.val ≤ j.val → (spanAt source i).start ≤ (spanAt source j).start ∧
      (spanAt source i).stop ≤ (spanAt source j).stop :=
  (laid_stream source).span_le i.isLt j.isLt

/-- The merged span starts where the first of the tokens does. -/
theorem exists_start_mergedSpan :
    ∃ lo ∈ i :: is, (∀ j ∈ i :: is, lo.val ≤ j.val) ∧
      (mergedSpan source i is).start = (spanAt source lo).start := by
  rw [mergedSpan, List.foldl_map]
  refine exists_foldl (fun i j => i.val ≤ j.val) (fun (s : Span) i => s.start = (spanAt source i).start)
    (fun _ _ => Nat.le_total _ _) (fun _ _ _ => Nat.le_trans) (fun s i j hs hle => ?_)
    (fun s i j hs hle => ?_) is _ i rfl
  · exact (Nat.min_eq_left (hs ▸ (spanAt_le hle).1)).trans hs
  · exact Nat.min_eq_right (hs ▸ (spanAt_le hle).1)

/-- The merged span ends where the last of the tokens does. -/
theorem exists_stop_mergedSpan :
    ∃ hi ∈ i :: is, (∀ j ∈ i :: is, j.val ≤ hi.val) ∧
      (mergedSpan source i is).stop = (spanAt source hi).stop := by
  rw [mergedSpan, List.foldl_map]
  refine exists_foldl (fun i j => j.val ≤ i.val) (fun (s : Span) i => s.stop = (spanAt source i).stop)
    (fun _ _ => Nat.le_total _ _) (fun _ _ _ hij hjk => Nat.le_trans hjk hij) (fun s i j hs hle => ?_)
    (fun s i j hs hle => ?_) is _ i rfl
  · exact (Nat.max_eq_left (hs ▸ (spanAt_le hle).2)).trans hs
  · exact Nat.max_eq_right (hs ▸ (spanAt_le hle).2)

/-- However the tokens are chosen and in whatever order, end mark included, their merged span goes from the first
one of them to the last one. The source holds there the texts of all tokens from the one to the other with the
gaps between them, and the span is as long as this text. -/
theorem merged_span_holds_stretch (source : Source) (i : Fin (Scanner.ofSource source).stream.length)
    (is : List (Fin (Scanner.ofSource source).stream.length)) :
    ∃ lo ∈ i :: is, ∃ hi ∈ i :: is, (∀ j ∈ i :: is, lo.val ≤ j.val ∧ j.val ≤ hi.val) ∧
      mergedSpan source i is = ⟨(spanAt source lo).start, (spanAt source hi).stop⟩ ∧
      ∃ text, (mergedSpan source i is).textIn? source = some text ∧
        stretch source (((Scanner.ofSource source).stream.take (hi.val + 1)).drop lo.val) = some text ∧
        (mergedSpan source i is).length = .ok (Source.size text) := by
  rcases exists_start_mergedSpan i is with ⟨lo, hlo, hfirst, hstart⟩
  rcases exists_stop_mergedSpan i is with ⟨hi, hhi, hlast, hstop⟩
  have hmerged : mergedSpan source i is = ⟨(spanAt source lo).start, (spanAt source hi).stop⟩ := by
    rw [← hstart, ← hstop]
  have hlaid : Laid source (((Scanner.ofSource source).stream.take (hi.val + 1)).drop lo.val) :=
    (laid_stream source).sublist ((List.drop_sublist _ _).trans (List.take_sublist _ _))
  rcases hlaid.stretch_eq (head?_drop_take (hfirst hi hhi) hi.isLt) (getLast?_drop_take (hfirst hi hhi) hi.isLt)
    with ⟨text, hstretch, hslice⟩
  have htext : (mergedSpan source i is).textIn? source = some text := by
    rw [hmerged]
    exact hslice
  exact ⟨lo, hlo, hi, hhi, fun j hj => ⟨hfirst j hj, hlast j hj⟩, hmerged, text, htext, hstretch,
    Source.length_of_textIn? htext⟩

-- The end mark takes nothing, but it stands behind the last blank, so a span that is merged with it does too.
example : mergedSpan "a <= 1 " ⟨3, by decide +kernel⟩ [⟨1, by decide +kernel⟩] = ⟨2, 7⟩ := by decide +kernel

end Merged

end MonkeyTokens
