import MonkeyTokens.Reading
import MonkeyTokens.Source.Cursor

/-!
# Encoding — the bytes of characters

A source is a list of characters and a list of bytes, and the bytes are those of the characters, one
character after the other. Main statements:

- `charWidth_first`: the first byte of a character tells its width;
- `high_of_mem_encode`: a character outside ASCII has no byte below `0x80`;
- `byteAt?_eq`: the byte at a position is the byte of the list;
- `isBoundary_iff`, `slice?_width`: boundaries are the widths of the prefixes, and between two of them
  lies the text of the characters between;
- `slice?_eq_some_iff`, `slice?_append`: how a slice cuts the characters, and that two slices that meet make up one.
-/

namespace MonkeyTokens

open Reading (width)

/-! ## Widths -/

namespace Reading

@[simp] theorem width_nil : width [] = 0 :=
  rfl

@[simp] theorem width_cons (c : Char) (cs : List Char) : width (c :: cs) = c.utf8Size + width cs :=
  rfl

@[simp] theorem width_append (cs ds : List Char) : width (cs ++ ds) = width cs + width ds := by
  induction cs with
  | nil => simp
  | cons c cs ih =>
      rw [List.cons_append, width_cons, width_cons, ih]
      omega

/-- Every character takes a byte at least. -/
theorem width_eq_zero_iff {cs : List Char} : width cs = 0 ↔ cs = [] := by
  cases cs with
  | nil => simp
  | cons c cs =>
      have hpos := c.utf8Size_pos
      simp only [width_cons, List.cons_ne_nil, iff_false]
      omega

/-- Of two beginnings of the same characters, the one that takes no more bytes is a beginning of the other. -/
theorem exists_append_of_width_le {cs ds es fs : List Char} :
    cs ++ es = ds ++ fs → width cs ≤ width ds → ∃ mid, ds = cs ++ mid := by
  intro h hle
  rcases List.append_eq_append_iff.1 h with ⟨mid, hds, _⟩ | ⟨mid, hcs, _⟩
  · exact ⟨mid, hds⟩
  · -- The other way round, there is nothing between them.
    rw [hcs, width_append] at hle
    have hnil : mid = [] := width_eq_zero_iff.1 (by omega)
    exact ⟨[], by simp [hcs, hnil]⟩

theorem length_flatMap_encode (cs : List Char) :
    (cs.flatMap String.utf8EncodeChar).length = width cs := by
  induction cs with
  | nil => rfl
  | cons c cs ih => simp [ih]

end Reading

/-! ## One character -/

namespace Byte

def first (x : Char) : UInt8 :=
  (String.utf8EncodeChar x).headD 0

theorem exists_encode_eq_cons (x : Char) : ∃ bs, String.utf8EncodeChar x = first x :: bs := by
  cases h : String.utf8EncodeChar x with
  | nil => exact absurd h String.utf8EncodeChar_ne_nil
  | cons b bs => exact ⟨bs, by simp [first, h]⟩

/-- The first byte of each of the four forms. -/
theorem first_eq (x : Char) :
    first x =
      if x.toNat ≤ 0x7F then UInt8.ofNat x.toNat
      else if x.toNat ≤ 0x7FF then UInt8.ofNat (x.toNat / 64 % 32 + 0xC0)
      else if x.toNat ≤ 0xFFFF then UInt8.ofNat (x.toNat / 4096 % 16 + 0xE0)
      else UInt8.ofNat (x.toNat / 262144 % 8 + 0xF0) := by
  unfold first String.utf8EncodeChar
  simp only [Char.toNat]
  split
  · rfl
  · split
    · rfl
    · split <;> rfl

theorem utf8Size_eq (x : Char) :
    x.utf8Size =
      if x.toNat ≤ 0x7F then 1
      else if x.toNat ≤ 0x7FF then 2
      else if x.toNat ≤ 0xFFFF then 3
      else 4 := by
  simp only [Char.utf8Size, Char.toNat, UInt32.le_iff_toNat_le]
  rfl

theorem charWidth_ofNat {n : Nat} (hn : n < 256) :
    Cursor.charWidth (UInt8.ofNat n) =
      if 0xC0 ≤ n ∧ n ≤ 0xDF then 2
      else if 0xE0 ≤ n ∧ n ≤ 0xEF then 3
      else if 0xF0 ≤ n ∧ n ≤ 0xF7 then 4
      else 1 := by
  simp only [Cursor.charWidth, UInt8.le_iff_toNat_le, UInt8.toNat_ofNat_of_lt' hn]
  rfl

/-- The first byte of a character tells how many bytes the character has. -/
theorem charWidth_first (x : Char) : Cursor.charWidth (first x) = x.utf8Size := by
  rw [first_eq, utf8Size_eq]
  -- The four forms of a character have first bytes in four separate ranges.
  split
  case isTrue =>
      rw [charWidth_ofNat (by omega)]
      grind
  case isFalse =>
      split
      case isTrue =>
          rw [charWidth_ofNat (by omega)]
          grind
      case isFalse =>
          split
          case isTrue =>
              rw [charWidth_ofNat (by omega)]
              grind
          case isFalse =>
              rw [charWidth_ofNat (by omega)]
              grind

theorem encode_of_ascii {x : Char} (h : x.toNat < 128) :
    String.utf8EncodeChar x = [UInt8.ofNat x.toNat] := by
  have hle : x.val.toNat ≤ 0x7F := Nat.le_of_lt_succ h
  unfold String.utf8EncodeChar
  simp only [hle, if_true]
  rfl

theorem first_of_ascii {x : Char} (h : x.toNat < 128) : first x = UInt8.ofNat x.toNat := by
  rw [first, encode_of_ascii h]
  rfl

theorem utf8Size_of_ascii {x : Char} (h : x.toNat < 128) : x.utf8Size = 1 := by
  rw [utf8Size_eq, if_pos (Nat.le_of_lt_succ h)]

theorem high_ofNat {n : Nat} (hlow : 128 ≤ n) (hn : n < 256) : 0x80 ≤ UInt8.ofNat n := by
  rw [UInt8.le_iff_toNat_le, UInt8.toNat_ofNat_of_lt' hn]
  exact hlow

/-- No byte of a character outside ASCII is the byte of an ASCII character. -/
theorem high_of_mem_encode {x : Char} (h : 128 ≤ x.toNat) {b : UInt8}
    (hb : b ∈ String.utf8EncodeChar x) : 0x80 ≤ b := by
  have hx : ¬ x.val.toNat ≤ 0x7F := Nat.not_le_of_lt h
  -- Each byte of the three longer forms is a marker of at least `0x80` and some bits.
  have hmem : ∃ n, 128 ≤ n ∧ n < 256 ∧ b = UInt8.ofNat n := by
    unfold String.utf8EncodeChar at hb
    simp only [hx, if_false] at hb
    split at hb
    · simp only [List.mem_cons, List.not_mem_nil, or_false] at hb
      rcases hb with rfl | rfl <;> exact ⟨_, by omega, by omega, rfl⟩
    · split at hb
      · simp only [List.mem_cons, List.not_mem_nil, or_false] at hb
        rcases hb with rfl | rfl | rfl <;> exact ⟨_, by omega, by omega, rfl⟩
      · simp only [List.mem_cons, List.not_mem_nil, or_false] at hb
        rcases hb with rfl | rfl | rfl | rfl <;> exact ⟨_, by omega, by omega, rfl⟩
  rcases hmem with ⟨n, hlow, hn, rfl⟩
  exact high_ofNat hlow hn

theorem high_first {x : Char} (h : 128 ≤ x.toNat) : 0x80 ≤ first x := by
  rcases exists_encode_eq_cons x with ⟨bs, hbs⟩
  exact high_of_mem_encode h (by simp [hbs])

end Byte

/-! ## Sources -/

namespace Source

def bytes (source : Source) : List UInt8 :=
  source.toList.flatMap String.utf8EncodeChar

theorem toList_data_toByteArray (source : Source) :
    source.toByteArray.data.toList = source.bytes := by
  have h : source.bytes.toByteArray = source.toByteArray := String.utf8Encode_toList
  rw [← h]
  simp

theorem size_eq_width (source : Source) : source.size = width source.toList := by
  rw [← Reading.length_flatMap_encode]
  change source.toByteArray.data.size = source.bytes.length
  rw [← toList_data_toByteArray]
  simp

theorem byteAt?_eq (source : Source) (i : Nat) : source.byteAt? i = source.bytes[i]? := by
  rw [← toList_data_toByteArray]
  unfold byteAt?
  split
  case isTrue h =>
      have hi : i < source.toByteArray.data.toList.length := h
      rw [List.getElem?_eq_getElem hi]
      rfl
  case isFalse h =>
      have hi : source.toByteArray.data.toList.length ≤ i := Nat.not_lt.1 h
      rw [List.getElem?_eq_none hi]

/-- The bytes from the width of a prefix on are those of the characters after it. -/
theorem byteAt?_width_add {source : Source} {pre post : List Char}
    (h : source.toList = pre ++ post) (i : Nat) :
    source.byteAt? (width pre + i) = (post.flatMap String.utf8EncodeChar)[i]? := by
  rw [byteAt?_eq, bytes, h, List.flatMap_append, ← Reading.length_flatMap_encode,
    List.getElem?_append_right (Nat.le_add_right _ _), Nat.add_sub_cancel_left]

theorem isBoundary_iff {source : Source} {i : Nat} :
    source.IsBoundary i ↔ ∃ pre post, source.toList = pre ++ post ∧ i = width pre := by
  have hsize (cs : List Char) : (String.ofList cs).utf8ByteSize = width cs := by
    have h := size_eq_width (String.ofList cs)
    rwa [String.toList_ofList] at h
  have hvalid := String.Pos.Raw.isValid_ofList (l := source.toList) (p := ⟨i⟩)
  rw [String.ofList_toList] at hvalid
  simp only [IsBoundary, hvalid, hsize]
  -- Valid positions are the widths of the first `n` characters.
  constructor
  · rintro ⟨n, hn⟩
    exact ⟨source.toList.take n, source.toList.drop n, (List.take_append_drop n _).symm, hn⟩
  · rintro ⟨pre, post, hcut, hi⟩
    refine ⟨pre.length, ?_⟩
    rw [hcut, List.take_left]
    exact hi

theorem slice?_width {source : Source} {pre mid post : List Char}
    (h : source.toList = pre ++ mid ++ post) :
    source.slice? (width pre) (width (pre ++ mid)) = some (String.ofList mid) := by
  have hcut : width pre ≤ width (pre ++ mid) ∧
      source.IsBoundary (width pre) ∧ source.IsBoundary (width (pre ++ mid)) := by
    refine ⟨by simp, ?_, ?_⟩
    · exact isBoundary_iff.2 ⟨pre, mid ++ post, by simp [h], rfl⟩
    · exact isBoundary_iff.2 ⟨pre ++ mid, post, h, rfl⟩
  have hsize (cs : List Char) : cs.utf8Encode.size = width cs := by
    rw [← Reading.length_flatMap_encode]
    simp [List.utf8Encode]
  have hbytes : source.toByteArray =
      pre.utf8Encode ++ (mid.utf8Encode ++ post.utf8Encode) := by
    rw [← String.utf8Encode_toList, h, List.utf8Encode_append, List.utf8Encode_append,
      ByteArray.append_assoc]
  -- Texts are equal when their bytes are, and those of the slice are cut out of three parts.
  unfold slice?
  rw [dif_pos hcut, Option.some_inj, ← String.toByteArray_inj]
  calc
    source.toByteArray.extract (width pre) (width (pre ++ mid))
        = (pre.utf8Encode ++ (mid.utf8Encode ++ post.utf8Encode)).extract
            (pre.utf8Encode.size + 0) (pre.utf8Encode.size + mid.utf8Encode.size) := by
          rw [hbytes, Reading.width_append, hsize, hsize, Nat.add_zero]
    _ = (mid.utf8Encode ++ post.utf8Encode).extract 0 mid.utf8Encode.size :=
          ByteArray.extract_append_size_add
    _ = (String.ofList mid).toByteArray := by
          rw [ByteArray.extract_append_eq_left rfl, String.toByteArray_ofList]

/-- A slice is a part of the characters, and its ends are the bytes before it and up to its end. -/
theorem slice?_eq_some_iff {source : Source} {start stop : Nat} {text : String} :
    source.slice? start stop = some text ↔
      ∃ pre post, source.toList = pre ++ text.toList ++ post ∧ start = width pre ∧
        stop = width (pre ++ text.toList) := by
  constructor
  · intro h
    rcases isSome_slice?.1 (Option.isSome_of_eq_some h) with ⟨hle, hstart, hstop⟩
    rcases isBoundary_iff.1 hstart with ⟨pre, left, hpre, rfl⟩
    rcases isBoundary_iff.1 hstop with ⟨upto, post, hupto, rfl⟩
    rcases Reading.exists_append_of_width_le (hpre.symm.trans hupto) hle with ⟨mid, rfl⟩
    rw [slice?_width hupto] at h
    obtain rfl := Option.some.inj h
    exact ⟨pre, post, by simpa using hupto, rfl, by simp⟩
  · rintro ⟨pre, post, hcut, rfl, rfl⟩
    rw [slice?_width hcut, String.ofList_toList]

/-- Two slices that meet make up one. -/
theorem slice?_append {source : Source} {i j k : Nat} {a b : String} :
    source.slice? i j = some a → source.slice? j k = some b → source.slice? i k = some (a ++ b) := by
  intro ha hb
  rcases slice?_eq_some_iff.1 ha with ⟨pre, post, hcut, rfl, rfl⟩
  rcases slice?_eq_some_iff.1 hb with ⟨upto, rest, hcut', hmeet, rfl⟩
  rw [hcut, List.append_assoc upto] at hcut'
  -- The second slice starts behind the characters of the first one.
  have hupto : upto = pre ++ a.toList := by
    rcases Reading.exists_append_of_width_le hcut' (Nat.le_of_eq hmeet) with ⟨mid, hmid⟩
    rw [hmid, Reading.width_append _ mid] at hmeet
    have hnil : mid = [] := Reading.width_eq_zero_iff.1 (by omega)
    rw [hmid, hnil, List.append_nil]
  subst hupto
  refine slice?_eq_some_iff.2 ⟨pre, rest, ?_, rfl, by simp⟩
  rw [hcut, List.append_cancel_left hcut']
  simp

end Source

end MonkeyTokens
