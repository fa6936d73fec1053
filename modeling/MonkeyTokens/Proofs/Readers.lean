import MonkeyTokens.Text.Quoted

/-!
# Readers — taking written texts apart from the front

A reader takes a value off the front of some characters and leaves the rest. `Reads` says that it takes exactly the
written form of a value, whatever comes behind it, and the law of `bind` puts written forms together. Main
statements:

- `reads_literal`, `reads_number`: fixed texts, and numbers in any base up to sixteen;
- `reads_escape`: one character between quotation marks, escaped or not;
- `reads_quoted`: quoted characters, both marks included.

No reader asks which characters are hidden, so what is read does not depend on it.
-/

namespace MonkeyTokens

namespace Text

/-- Takes a value off the front of characters, and leaves the rest. -/
abbrev Reader := StateT (List Char) Option

namespace Reader

variable {α β : Type} {text more rest : List Char}

/-! ## What a reader takes -/

/-- The reader takes the characters `text`, and no more, and yields `a`, when `rest` comes behind them. -/
def Reads (r : Reader α) (text : List Char) (a : α) (rest : List Char) : Prop :=
  r.run (text ++ rest) = some (a, rest)

theorem Reads.pure (a : α) : Reads (pure a) [] a rest :=
  rfl

theorem Reads.bind {r : Reader α} {f : α → Reader β} {a : α} {b : β} :
    Reads r text a (more ++ rest) → Reads (f a) more b rest → Reads (r >>= f) (text ++ more) b rest := by
  intro hr hf
  calc
    (r >>= f).run (text ++ more ++ rest)
        = (r.run (text ++ (more ++ rest))).bind (fun p => (f p.1).run p.2) := by
          rw [List.append_assoc]
          rfl
    _ = (f a).run (more ++ rest) := by
          rw [hr]
          rfl
    _ = some (b, rest) := hf

def read? (r : Reader α) (text : String) : Option α :=
  (r.run text.toList).bind fun p => if p.2.isEmpty then some p.1 else none

theorem Reads.read? {r : Reader α} {a : α} {text : String} :
    Reads r text.toList a [] → r.read? text = some a := by
  intro h
  rw [Reads, List.append_nil] at h
  rw [Reader.read?, h]
  rfl

/-- The reader leaves no more than it was given. -/
def Shortens (r : Reader α) : Prop :=
  ∀ cs a rest, r.run cs = some (a, rest) → rest.length ≤ cs.length

theorem Shortens.pure (a : α) : Shortens (pure a) := by
  intro cs b rest h
  cases h
  exact Nat.le_refl _

theorem Shortens.bind {r : Reader α} {f : α → Reader β} :
    Shortens r → (∀ a, Shortens (f a)) → Shortens (r >>= f) := by
  intro hr hf cs b rest h
  rcases Option.bind_eq_some_iff.1 h with ⟨⟨a, mid⟩, hmid, hrest⟩
  exact Nat.le_trans (hf a mid b rest hrest) (hr cs a mid hmid)

/-! ## Fixed texts -/

def literal (text : String) : Reader Unit :=
  fun cs => if text.toList.isPrefixOf cs then some ((), cs.drop text.toList.length) else none

theorem reads_literal (text : String) : Reads (literal text) text.toList () rest := by
  have hprefix : text.toList.isPrefixOf (text.toList ++ rest) = true :=
    List.isPrefixOf_iff_prefix.2 (List.prefix_append _ _)
  change (if _ then _ else _) = _
  rw [if_pos hprefix, List.drop_left]

theorem shortens_literal (text : String) : Shortens (literal text) := by
  intro cs a rest h
  change (if _ then _ else _) = _ at h
  split at h
  · cases h
    rw [List.length_drop]
    exact Nat.sub_le _ _
  · cases h

/-! ## Numbers -/

def digit? (base : Nat) (c : Char) : Option Nat :=
  (List.range base).find? fun d => d.digitChar == c

def value (base : Nat) (ds : List Char) : Nat :=
  ds.foldl (fun n c => base * n + (digit? base c).getD 0) 0

def number (base : Nat) : Reader Nat :=
  fun cs =>
    some (value base (cs.takeWhile fun c => (digit? base c).isSome),
      cs.dropWhile fun c => (digit? base c).isSome)

theorem digit?_digitChar {base d : Nat} : base ≤ 16 → d < base → digit? base d.digitChar = some d := by
  intro hbase hd
  have hall : ∀ b ≤ 16, ∀ d < b, digit? b d.digitChar = some d := by decide
  exact hall base hbase d hd

/-- What is written in a base are digits of that base, and they make up the number. -/
theorem value_toDigits {base : Nat} (hlow : 1 < base) (hbase : base ≤ 16) (n : Nat) :
    (∀ c ∈ Nat.toDigits base n, (digit? base c).isSome = true) ∧ value base (Nat.toDigits base n) = n := by
  induction n using Nat.strongRecOn with
  | ind n ih =>
      by_cases hn : n < base
      · rw [Nat.toDigits_of_lt_base hn]
        simp [value, digit?_digitChar hbase hn]
      · -- The last digit is the remainder, and those before it are the digits of the quotient.
        have hle := Nat.le_of_not_lt hn
        have hlast := digit?_digitChar hbase (Nat.mod_lt n (Nat.lt_of_succ_lt hlow))
        rcases ih (n / base) (Nat.div_lt_self (by omega) hlow) with ⟨hdigits, hvalue⟩
        rw [Nat.toDigits_of_base_le hlow hle]
        refine ⟨?_, ?_⟩
        · simpa [or_imp, forall_and, hlast] using hdigits
        · rw [value] at hvalue ⊢
          rw [List.foldl_append, hvalue]
          simp [hlast, Nat.div_add_mod]

/-- A number is taken whole where no digit comes behind it. -/
theorem reads_number {base : Nat} (hlow : 1 < base) (hbase : base ≤ 16) (n : Nat) :
    rest.head?.any (fun c => (digit? base c).isSome) = false →
      Reads (number base) (Nat.toDigits base n) n rest := by
  intro hrest
  rcases value_toDigits hlow hbase n with ⟨hdigits, hvalue⟩
  have hstop : rest.takeWhile (fun c => (digit? base c).isSome) = [] ∧
      rest.dropWhile (fun c => (digit? base c).isSome) = rest := by
    cases rest with
    | nil => simp
    | cons c rest =>
        have hc : (digit? base c).isSome = false := hrest
        simp [hc]
  change some (_, _) = _
  rw [List.takeWhile_append_of_pos hdigits, List.dropWhile_append_of_pos hdigits, hstop.1, hstop.2,
    List.append_nil, hvalue]

theorem shortens_number (base : Nat) : Shortens (number base) := by
  intro cs n rest h
  cases h
  exact (List.dropWhile_sublist _).length_le

/-! ## Escaped characters -/

/-- The character that is named by a sign behind a backslash. The marks and the backslash name themselves. -/
def named : Char → Char
  | '0' => '\x00'
  | 't' => '\t'
  | 'n' => '\n'
  | 'r' => '\r'
  | c => c

def numbered : Reader Char := do
  literal "\x7b"
  let n ← number 16
  literal "\x7d"
  return Char.ofNat n

/-- What comes behind a backslash. -/
def sign : Reader Char
  | [] => none
  | c :: cs => if c = 'u' then numbered.run cs else some (named c, cs)

def escaped : Reader Char
  | [] => none
  | c :: cs => if c = '\\' then sign.run cs else some (c, cs)

theorem reads_numbered (c : Char) :
    Reads numbered (['\x7b'] ++ (hex c.toNat ++ ['\x7d'])) c rest := by
  have hdigits : Reads (number 16) (hex c.toNat) c.toNat (['\x7d'] ++ rest) :=
    reads_number (by decide) (by decide) _ rfl
  have hchar : Reads (Pure.pure (Char.ofNat c.toNat)) [] c rest := by
    rw [Char.ofNat_toNat]
    exact .pure c
  refine (reads_literal "\x7b").bind (hdigits.bind ?_)
  rw [← List.append_nil ['\x7d']]
  exact (reads_literal "\x7d").bind hchar

/-- A sign other than `u` names a character. -/
theorem reads_escaped_sign {c d : Char} : d ≠ 'u' → named d = c → Reads escaped ['\\', d] c rest := by
  intro hd hc
  change sign.run (d :: rest) = _
  change (if d = 'u' then _ else some (named d, rest)) = _
  rw [if_neg hd, hc]

theorem reads_escaped_self {c : Char} : c ≠ '\\' → Reads escaped [c] c rest := by
  intro hc
  change (if c = '\\' then _ else some (c, rest)) = _
  rw [if_neg hc]

/-- What may stand about quoted characters: the two quotation marks. -/
def isMark (quote : Char) : Bool :=
  quote == '\x22' || quote == '\x27'

theorem isMark_cases {quote : Char} :
    isMark quote = true → quote ≠ '\\' ∧ quote ≠ 'u' ∧ named quote = quote := by
  intro h
  rw [isMark, Bool.or_eq_true, beq_iff_eq, beq_iff_eq] at h
  rcases h with rfl | rfl <;> decide

/-- The three ways of writing a character: by a sign, by its number, or as it is. -/
theorem escape_cases {quote : Char} (hquote : isMark quote = true) (hidden : Char → Bool) (c : Char) :
    (∃ d, d ≠ 'u' ∧ named d = c ∧ escape hidden quote c = ['\\', d]) ∨
      escape hidden quote c = ['\\', 'u', '\x7b'] ++ hex c.toNat ++ ['\x7d'] ∨
      c ≠ '\\' ∧ c ≠ quote ∧ escape hidden quote c = [c] := by
  rcases isMark_cases hquote with ⟨_, hsign, hnamed⟩
  unfold escape
  by_cases hnul : c = '\x00'
  · exact .inl ⟨'0', by decide, hnul.symm, if_pos hnul⟩
  by_cases htab : c = '\t'
  · exact .inl ⟨'t', by decide, htab.symm, by simp [htab]⟩
  by_cases hline : c = '\n'
  · exact .inl ⟨'n', by decide, hline.symm, by simp [hline]⟩
  by_cases hreturn : c = '\r'
  · exact .inl ⟨'r', by decide, hreturn.symm, by simp [hreturn]⟩
  by_cases hslash : c = '\\'
  · exact .inl ⟨'\\', by decide, hslash.symm, by simp [hslash]⟩
  by_cases hmark : c = quote
  · exact .inl ⟨quote, hsign, hmark ▸ hnamed, by
      rw [if_neg hnul, if_neg htab, if_neg hline, if_neg hreturn, if_neg hslash, if_pos hmark]⟩
  by_cases hhidden : hidden c = true
  · exact .inr (.inl (by simp [*]))
  · exact .inr (.inr ⟨hslash, hmark, by simp [*]⟩)

/-- The written form of a character is taken off whatever comes behind it. -/
theorem reads_escape {quote : Char} (hquote : isMark quote = true) (hidden : Char → Bool) (c : Char) :
    Reads escaped (escape hidden quote c) c rest := by
  rcases escape_cases hquote hidden c with ⟨d, hd, hnamed, heq⟩ | heq | ⟨hslash, _, heq⟩
  · rw [heq]
    exact reads_escaped_sign hd hnamed
  · rw [heq]
    exact reads_numbered c
  · rw [heq]
    exact reads_escaped_self hslash

/-- No written form starts with the mark that ends the text. -/
theorem head?_escape_ne {quote : Char} (hquote : isMark quote = true) (hidden : Char → Bool) (c : Char) :
    (escape hidden quote c ++ rest).head? ≠ some quote := by
  have hmark := (isMark_cases hquote).1.symm
  rcases escape_cases hquote hidden c with ⟨d, _, _, heq⟩ | heq | ⟨_, hne, heq⟩
  · simpa [heq] using hmark
  · simpa [heq] using hmark
  · simpa [heq] using hne

theorem shortens_numbered : Shortens numbered := by
  refine (shortens_literal _).bind fun _ => (shortens_number _).bind fun n => ?_
  exact (shortens_literal _).bind fun _ => .pure _

/-- A character takes at least one from the front. -/
theorem length_lt_of_escaped {cs rest : List Char} {c : Char} :
    escaped.run cs = some (c, rest) → rest.length < cs.length := by
  intro h
  cases cs with
  | nil => cases h
  | cons d cs =>
      change (if d = '\\' then sign.run cs else some (d, cs)) = _ at h
      split at h
      case isFalse =>
          cases h
          exact Nat.lt_succ_self _
      case isTrue =>
          cases cs with
          | nil => cases h
          | cons e cs =>
              change (if e = 'u' then numbered.run cs else some (named e, cs)) = _ at h
              split at h
              · have hle := shortens_numbered cs c rest h
                simp only [List.length_cons]
                omega
              · cases h
                simp only [List.length_cons]
                omega

/-! ## Quoted characters -/

def closed (quote : Char) (cs : List Char) : Option (List Char × List Char) :=
  if cs.head? = some quote then
    some ([], cs.tail)
  else
    match _h : escaped.run cs with
    | none => none
    | some (c, rest) => (closed quote rest).map fun p => (c :: p.1, p.2)
termination_by cs.length
decreasing_by exact length_lt_of_escaped _h

def quotedBy (quote : Char) : Reader (List Char) := do
  literal (String.singleton quote)
  fun cs => closed quote cs

theorem closed_of_escaped {quote c : Char} {cs rest : List Char} :
    cs.head? ≠ some quote → escaped.run cs = some (c, rest) →
      closed quote cs = (closed quote rest).map fun p => (c :: p.1, p.2) := by
  intro hhead h
  rw [closed, if_neg hhead]
  split
  case h_1 hnone => cases hnone.symm.trans h
  case h_2 hsome =>
      cases hsome.symm.trans h
      rfl

theorem closed_flatMap_escape {quote : Char} (hquote : isMark quote = true) (hidden : Char → Bool)
    (cs : List Char) :
    closed quote (cs.flatMap (escape hidden quote) ++ quote :: rest) = some (cs, rest) := by
  induction cs with
  | nil =>
      rw [closed]
      simp
  | cons c cs ih =>
      rw [List.flatMap_cons, List.append_assoc,
        closed_of_escaped (head?_escape_ne hquote hidden c) (reads_escape hquote hidden c), ih]
      rfl

/-- Quoted characters are taken, with both marks. -/
theorem reads_quoted {quote : Char} (hquote : isMark quote = true) (hidden : Char → Bool)
    (cs : List Char) :
    Reads (quotedBy quote) (quoted hidden quote cs).toList cs rest := by
  have hopen (after : List Char) : Reads (literal (String.singleton quote)) [quote] () after := by
    have hliteral : Reads (literal (String.singleton quote)) (String.singleton quote).toList () after :=
      reads_literal _
    rwa [String.toList_singleton] at hliteral
  rw [quoted, String.toList_ofList, ← List.singleton_append]
  refine (hopen _).bind ?_
  rw [Reads, List.append_assoc]
  exact closed_flatMap_escape hquote hidden cs

end Reader

end Text

end MonkeyTokens
