import MonkeyTokens.Proofs.Refinement

/-!
# Partition — tokens and blanks make up the source

Nothing of a source is lost and nothing is read twice. `Cut` says that characters fall into blanks and the
texts of located tokens. Every reading is such a cut, and what `Partitions` promises follows from the cut
by induction. Main statements:

- `Reading.exists_cut`: every reading cuts its characters;
- `Cut.partitions`: the spans of a cut are ordered, hold the texts, and leave out blanks only;
- `Cut.weave_eq`: the texts with the gaps between them are the source again;
- `stream_partitions`: all of this for the stream of a source.
-/

namespace MonkeyTokens

open Reading

/-! ## What a partition promises -/

/-- The located tokens lie in the source one after the other, before its end, and blanks are all that they
leave out. -/
structure Partitions (source : Source) (xs : List Located) : Prop where
  nonempty : ∀ x ∈ xs, x.span.start < x.span.stop
  ordered : (xs ++ [Located.eof source.size]).Pairwise fun x y => x.span.stop ≤ y.span.start
  text_eq : ∀ x ∈ xs, x.span.textIn? source = some x.token.text
  blank_outside : ∀ i b, source.byteAt? i = some b →
    (∀ x ∈ xs, x.span.contains i = false) → Byte.isBlank b = true
  solid : ∀ x ∈ xs, x.token.text.toList.all (fun c => !Lexeme.isBlank c) = true

/-- The texts of the tokens, with the source's own text in the gaps before, between and after them. -/
def weave (source : Source) (start : Nat) : List Located → Option String
  | [] => source.slice? start source.size
  | x :: xs => do
      let gap ← source.slice? start x.span.start
      let rest ← weave source x.span.stop xs
      return gap ++ x.token.text ++ rest

/-! ## Cuts of characters -/

/-- After the characters `passed`, the characters `left` are the texts of the tokens, with blanks before,
between and after them. -/
inductive Cut : List Char → List Char → List Located → Prop where
  | blanks {passed gap : List Char} (blank : gap.all Lexeme.isBlank = true) : Cut passed gap []
  | token {passed gap text left : List Char} {t : Token} {xs : List Located}
      (blank : gap.all Lexeme.isBlank = true) (text_eq : t.text = String.ofList text)
      (nonempty : text ≠ []) (solid : text.all (fun c => !Lexeme.isBlank c) = true)
      (rest : Cut (passed ++ gap ++ text) left xs) :
      Cut passed (gap ++ (text ++ left))
        (⟨t, ⟨width (passed ++ gap), width (passed ++ gap ++ text)⟩⟩ :: xs)

namespace Reading

/-- No token holds a blank. -/
theorem all_solid {x : Char} (left : List Char) :
    Lexeme.isBlank x = false → (x :: more x left).all (fun c => !Lexeme.isBlank c) = true := by
  intro hx
  have hmore : ∀ y ∈ more x left, Lexeme.isBlank y = false := by
    intro y hy
    cases hblank : Lexeme.isBlank y with
    | false => rfl
    | true =>
        rcases Lexeme.classes_of_isBlank hblank with ⟨hword, _, hequals⟩
        rcases mem_more hy with hy | rfl
        · rw [hy] at hword
          cases hword
        · cases hequals
  simpa [hx] using hmore

end Reading

namespace Cut

variable {source : Source} {passed left : List Char} {xs : List Located}

theorem cons_blank {x : Char} :
    Lexeme.isBlank x = true → Cut (passed ++ [x]) left xs → Cut passed (x :: left) xs := by
  intro hx h
  generalize hp : passed ++ [x] = passed' at h
  cases h with
  | blanks blank => exact .blanks (by simpa [hx] using blank)
  | @token _ gap text left t xs blank text_eq nonempty solid rest =>
      subst hp
      have hblank : (x :: gap).all Lexeme.isBlank = true := by simpa [hx] using blank
      have hrest : Cut (passed ++ x :: gap ++ text) left xs := by simpa using rest
      have hcut := token hblank text_eq nonempty solid hrest
      simpa using hcut

/-- A token that starts here, and a cut of what is after it. -/
theorem cons_token {x : Char} :
    Lexeme.isBlank x = false → Cut (passed ++ x :: more x left) (after x left) xs →
      Cut passed (x :: left)
        (⟨firstToken x left, ⟨width passed, width (passed ++ x :: more x left)⟩⟩ :: xs) := by
  intro hx h
  have hnil : ([] : List Char).all Lexeme.isBlank = true := rfl
  have htext : (firstToken x left).text = String.ofList (x :: more x left) := rfl
  have hrest : Cut (passed ++ [] ++ x :: more x left) (after x left) xs := by simpa using h
  have hcut := token hnil htext (List.cons_ne_nil _ _) (all_solid left hx) hrest
  simpa [more_append_after] using hcut

end Cut

namespace Reading

/-- Every reading cuts its characters, and puts the end mark at their end. -/
theorem exists_cut (passed left : List Char) :
    ∃ xs, tokens (width passed) left = xs ++ [.eof (width (passed ++ left))] ∧
      (∀ x ∈ xs, x.token.isEof = false) ∧ Cut passed left xs := by
  induction hoffset : width passed, left using tokens_induction generalizing passed with
  | nil => exact ⟨[], by simp [tokens_nil, ← hoffset], by simp, .blanks rfl⟩
  | blank offset x left hx ih =>
      -- The blank goes to the gap that the cut after it starts with.
      rcases ih (passed ++ [x]) (by simp [hoffset]) with ⟨xs, htokens, hkinds, hcut⟩
      refine ⟨xs, ?_, hkinds, hcut.cons_blank hx⟩
      rw [tokens_of_blank _ _ hx]
      simpa using htokens
  | token offset x left hx ih =>
      -- The token stands behind an empty gap.
      subst hoffset
      rcases ih (passed ++ x :: more x left) (width_append _ _) with ⟨xs, htokens, hkinds, hcut⟩
      have hend : passed ++ x :: more x left ++ after x left = passed ++ x :: left := by
        simp [more_append_after]
      rw [hend, ← width_append] at htokens
      refine ⟨_ :: xs, ?_, ?_, hcut.cons_token hx⟩
      · rw [tokens_of_not_blank _ _ hx, ← width_append, htokens, List.cons_append]
      · exact List.forall_mem_cons.2 ⟨isEof_firstToken x left, hkinds⟩

end Reading

namespace Cut

variable {source : Source} {passed left : List Char} {xs : List Located}

/-! ## The spans of a cut -/

theorem start_le : Cut passed left xs → ∀ x ∈ xs, width passed ≤ x.span.start := by
  intro h
  induction h with
  | blanks _ => simp
  | token _ _ _ _ _ ih =>
      refine List.forall_mem_cons.2 ⟨?_, fun x hx => ?_⟩
      · simp
      · have hstart := ih x hx
        simp only [width_append] at hstart
        omega

theorem nonempty_span : Cut passed left xs → ∀ x ∈ xs, x.span.start < x.span.stop := by
  intro h
  induction h with
  | blanks _ => simp
  | token _ _ nonempty _ _ ih =>
      refine List.forall_mem_cons.2 ⟨?_, ih⟩
      have hpos := Nat.pos_of_ne_zero (mt width_eq_zero_iff.1 nonempty)
      simp only [width_append]
      omega

/-- The spans follow one another, and the end comes after the last one. -/
theorem ordered : Cut passed left xs →
    (xs ++ [Located.eof (width (passed ++ left))]).Pairwise fun x y => x.span.stop ≤ y.span.start := by
  intro h
  induction h with
  | blanks _ => exact List.pairwise_singleton _ _
  | token _ _ _ _ rest ih =>
      have hend (cs ds es fs : List Char) : cs ++ ds ++ es ++ fs = cs ++ (ds ++ (es ++ fs)) := by
        simp
      rw [hend] at ih
      refine List.pairwise_cons.2 ⟨fun x hx => ?_, ih⟩
      -- All that comes later starts where this token stops, or after it.
      rcases List.mem_append.1 hx with hx | hx
      · exact rest.start_le x hx
      · rw [List.mem_singleton.1 hx]
        simp only [Located.eof, Span.point, width_append]
        omega

/-! ## The texts of a cut -/

theorem text_eq (h : source.toList = passed ++ left) :
    Cut passed left xs → ∀ x ∈ xs, x.span.textIn? source = some x.token.text := by
  intro hcut
  induction hcut with
  | blanks _ => simp
  | token _ text_eq _ _ _ ih =>
      refine List.forall_mem_cons.2 ⟨?_, ih (by simpa using h)⟩
      rw [text_eq]
      exact Source.slice?_width (by simpa using h)

theorem solid : Cut passed left xs →
    ∀ x ∈ xs, x.token.text.toList.all (fun c => !Lexeme.isBlank c) = true := by
  intro h
  induction h with
  | blanks _ => simp
  | token _ text_eq _ solid _ ih =>
      refine List.forall_mem_cons.2 ⟨?_, ih⟩
      rw [text_eq, String.toList_ofList]
      exact solid

/-- The texts of a cut are its characters without the blanks. -/
theorem join_texts : Cut passed left xs →
    String.join (xs.map (·.token.text)) =
      String.ofList (left.filter fun c => !Lexeme.isBlank c) := by
  intro h
  have hgap {gap : List Char} (blank : gap.all Lexeme.isBlank = true) :
      gap.filter (fun c => !Lexeme.isBlank c) = [] := by
    simpa using blank
  apply String.toList_injective
  rw [String.toList_ofList, String.toList_join]
  induction h with
  | blanks blank => simpa using (hgap blank).symm
  | token blank text_eq _ solid _ ih =>
      -- The filter drops the gap and keeps the text whole.
      have hall := List.filter_eq_self.2 (List.all_eq_true.1 solid)
      rw [List.filter_append, List.filter_append, hgap blank, hall, ← ih]
      simp [text_eq]

/-- The texts with the gaps between them are the source again. -/
theorem weave_eq (h : source.toList = passed ++ left) :
    Cut passed left xs → weave source (width passed) xs = some (String.ofList left) := by
  intro hcut
  induction hcut with
  | @blanks passed gap _ =>
      have hend : source.toList = passed ++ gap ++ [] := by simpa using h
      rw [weave, Source.size_eq_width, h]
      exact Source.slice?_width hend
  | @token passed gap text left t xs _ text_eq _ _ _ ih =>
      -- The gap is a slice of the source, and the texts after it are woven already.
      have hfirst : source.toList = passed ++ gap ++ (text ++ left) := by simpa using h
      have hrest := ih (by simpa using h)
      simp only [weave, Source.slice?_width hfirst, hrest, text_eq]
      simp [String.append_assoc]

/-! ## The bytes between the spans -/

/-- The bytes of blanks are blanks. -/
theorem isBlank_of_mem_bytes {gap : List Char} {b : UInt8} :
    gap.all Lexeme.isBlank = true → b ∈ gap.flatMap String.utf8EncodeChar →
      Byte.isBlank b = true := by
  intro hgap hb
  rcases List.mem_flatMap.1 hb with ⟨x, hx, hmem⟩
  have hblank := List.all_eq_true.1 hgap x hx
  have hascii := Byte.matches_isBlank.chars x hblank
  rw [Byte.encode_of_ascii hascii, List.mem_singleton] at hmem
  rw [hmem, ← Byte.first_of_ascii hascii, Byte.matches_isBlank.first]
  exact hblank

/-- A byte of a gap is a blank. -/
theorem isBlank_of_gap {gap post : List Char} {i : Nat} {b : UInt8}
    (h : source.toList = passed ++ (gap ++ post)) :
    gap.all Lexeme.isBlank = true → width passed ≤ i → i < width (passed ++ gap) →
      source.byteAt? i = some b → Byte.isBlank b = true := by
  intro hgap hle hlt hb
  obtain ⟨j, rfl⟩ := Nat.exists_eq_add_of_le hle
  have hj : j < (gap.flatMap String.utf8EncodeChar).length := by
    rw [length_flatMap_encode]
    simpa using hlt
  rw [Source.byteAt?_width_add h, List.flatMap_append, List.getElem?_append_left hj] at hb
  exact isBlank_of_mem_bytes hgap (List.mem_of_getElem? hb)

theorem blank_outside (h : source.toList = passed ++ left) {i : Nat} {b : UInt8}
    (hb : source.byteAt? i = some b) :
    Cut passed left xs → width passed ≤ i → (∀ x ∈ xs, x.span.contains i = false) →
      Byte.isBlank b = true := by
  intro hcut
  induction hcut with
  | @blanks passed gap blank =>
      intro hle _
      have hlt : i < width (passed ++ gap) := by
        rw [← h, ← Source.size_eq_width, ← Source.isSome_byteAt?, hb]
        rfl
      have hend : source.toList = passed ++ (gap ++ []) := by simpa using h
      exact isBlank_of_gap hend blank hle hlt hb
  | @token passed gap text left t xs blank _ _ _ _ ih =>
      intro hle hout
      rcases List.forall_mem_cons.1 hout with ⟨hfirst, hxs⟩
      -- The byte stands in the gap, in the token or behind it.
      by_cases hgap : i < width (passed ++ gap)
      · exact isBlank_of_gap h blank hle hgap hb
      · by_cases htext : i < width (passed ++ gap ++ text)
        · simp only [Span.contains, Nat.le_of_not_lt hgap, htext, decide_true, Bool.and_self] at hfirst
          cases hfirst
        · exact ih (by simpa using h) (Nat.le_of_not_lt htext) hxs

theorem partitions (h : Cut [] source.toList xs) : Partitions source xs where
  nonempty := h.nonempty_span
  ordered := by
    rw [Source.size_eq_width]
    exact h.ordered
  text_eq := h.text_eq rfl
  blank_outside := fun _ _ hb hout => blank_outside rfl hb h (Nat.zero_le _) hout
  solid := h.solid

end Cut

/-! ## The tokens of a source -/

/-- The tokens of a source with their spans, without the end mark. -/
def items (source : Source) : List Located :=
  (Scanner.ofSource source).stream.dropLast

/-- The tokens of a source cut it, and the end mark comes after them. -/
theorem stream_cuts (source : Source) :
    (Scanner.ofSource source).stream = items source ++ [.eof source.size] ∧
      (∀ x ∈ items source, x.token.isEof = false) ∧ Cut [] source.toList (items source) := by
  rcases exists_cut [] source.toList with ⟨xs, htokens, hkinds, hcut⟩
  have hstream : (Scanner.ofSource source).stream = xs ++ [.eof source.size] := by
    rw [Scanner.stream_ofSource, Source.size_eq_width]
    exact htokens
  have hitems : items source = xs := by
    rw [items, hstream, List.dropLast_concat]
  exact hitems ▸ ⟨hstream, hkinds, hcut⟩

theorem stream_eq_items (source : Source) :
    (Scanner.ofSource source).stream = items source ++ [.eof source.size] ∧
      (∀ x ∈ items source, x.token.isEof = false) :=
  ⟨(stream_cuts source).1, (stream_cuts source).2.1⟩

/-! ## The stream of a source -/

/-- The tokens of a source and the blanks between them are the source, and nothing else is. -/
theorem stream_partitions (source : Source) :
    ∃ xs, (Scanner.ofSource source).stream = xs ++ [.eof source.size] ∧
      (∀ x ∈ xs, x.token.isEof = false) ∧
      Partitions source xs ∧
      weave source 0 xs = some source ∧
      String.join ((tokenize source).map (·.text)) =
        String.ofList (source.toList.filter fun c => !Lexeme.isBlank c) := by
  rcases exists_cut [] source.toList with ⟨xs, htokens, hkinds, hcut⟩
  have hstream : (Scanner.ofSource source).stream = xs ++ [.eof source.size] := by
    rw [Scanner.stream_eq_tokens (Scanner.between_ofSource source), htokens, List.nil_append,
      Source.size_eq_width]
  refine ⟨xs, hstream, hkinds, hcut.partitions, ?_, ?_⟩
  · have hweave := hcut.weave_eq rfl
    rwa [String.ofList_toList] at hweave
  · rw [tokenize_eq_map_stream, hstream, ← hcut.join_texts]
    simp [Located.eof, Token.eof, String.join_append, Function.comp_def]

end MonkeyTokens
