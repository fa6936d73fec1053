import Mathlib.Data.List.Chain
import MonkeyTokens.Proofs.Gluing
import MonkeyTokens.Proofs.Refinement

/-!
# Printing — tokens written out, and read back

Proper tokens are written one after the other, with blanks before, between and after them as one likes.
Reading the text yields the same tokens exactly when no two tokens that touch glue. The proof follows the
list: a token is read back exactly when the next character does not continue it, and only then does the
next token start where it was written. Main statement: `tokenize_print_iff`.
-/

namespace MonkeyTokens

open Reading

/-! ## Written forms -/

/-- A token, and the blanks written after it. -/
structure Spaced where
  token : Token
  gap : String
  deriving DecidableEq, Repr

namespace Spaced

def isProper (x : Spaced) : Bool :=
  x.token.isProper && x.gap.toList.all Lexeme.isBlank

def sticks (x y : Spaced) : Bool :=
  x.gap == "" && x.token.kind.glues y.token.kind

def chars (x : Spaced) : List Char :=
  x.token.text.toList ++ x.gap.toList

end Spaced

/-- The text of tokens in a row, with blanks before the first one. -/
def print (lead : String) (items : List Spaced) : Source :=
  lead ++ String.join (items.map fun x => x.token.text ++ x.gap)

theorem toList_print (lead : String) (items : List Spaced) :
    (print lead items).toList = lead.toList ++ items.flatMap Spaced.chars := by
  have hitem : (fun x : Spaced => (x.token.text ++ x.gap).toList) = Spaced.chars :=
    funext fun x => String.toList_append
  rw [print, String.toList_append, String.toList_join, List.flatMap_map, hitem]

/-! ## Reading a list of tokens back -/

/-- The character that follows a token continues it exactly when the token sticks to the next one. -/
theorem continues_head_iff {x : Spaced} {items : List Spaced} :
    x.isProper = true → (∀ y ∈ items, y.isProper = true) →
      ((∀ c ∈ (x.gap.toList ++ items.flatMap Spaced.chars).head?,
          x.token.kind.continues c = false) ↔
        ∀ y ∈ items.head?, x.sticks y = false) := by
  intro hx hitems
  rcases Bool.and_eq_true_iff.1 hx with ⟨_, hblanks⟩
  cases hgap : x.gap.toList with
  | cons b bs =>
      -- A blank keeps the tokens apart.
      have hb : Lexeme.isBlank b = true := by
        rw [hgap] at hblanks
        exact (Bool.and_eq_true_iff.1 hblanks).1
      have hne : (x.gap == "") = false := by
        have hne' : x.gap ≠ "" := by
          intro hempty
          simp [hempty] at hgap
        simpa using hne'
      simp [Spaced.sticks, hne, Kind.continues_of_isBlank hb]
  | nil =>
      have hempty : x.gap = "" := String.toList_eq_nil_iff.1 hgap
      cases items with
      | nil => simp
      | cons y items =>
          rcases Bool.and_eq_true_iff.1 (hitems y List.mem_cons_self) with ⟨hy, _⟩
          rcases Token.exists_form hy with ⟨d, ds, htext, hform⟩
          simp only [List.flatMap_cons, Spaced.chars, htext, String.toList_ofList, List.nil_append,
            List.cons_append, List.head?_cons, Option.mem_some_iff, forall_eq', Spaced.sticks,
            hempty, beq_self_eq_true, Bool.true_and, hform.continues_eq_glues]

theorem tokens_print_iff {gap : List Char} {items : List Spaced} (offset : Nat) :
    gap.all Lexeme.isBlank = true → (∀ x ∈ items, x.isProper = true) →
      ((tokens offset (gap ++ items.flatMap Spaced.chars)).map (·.token) =
          items.map (·.token) ++ [.eof] ↔
        items.IsChain fun x y => x.sticks y = false) := by
  induction items generalizing offset gap with
  | nil =>
      intro hgap _
      rw [tokens_blanks_append offset _ hgap, List.flatMap_nil, tokens_nil]
      simp [Located.eof]
  | cons x items ih =>
      intro hgap hproper
      rcases List.forall_mem_cons.1 hproper with ⟨hx, hitems⟩
      rcases Bool.and_eq_true_iff.1 hx with ⟨htoken, hblanks⟩
      rcases Token.exists_form htoken with ⟨c, cs, htext, hform⟩
      have hchars : (x :: items).flatMap Spaced.chars =
          c :: (cs ++ (x.gap.toList ++ items.flatMap Spaced.chars)) := by
        simp [Spaced.chars, htext]
      -- The first token read starts at `c`, whatever stands behind the text.
      have hread (tail : List Char) : firstToken c (cs ++ tail) = x.token ↔
          more c (cs ++ tail) = cs :=
        Token.firstToken_eq_iff htoken htext
      rw [tokens_blanks_append offset _ hgap, hchars,
        tokens_of_not_blank _ _ hform.isBlank_eq_false, List.map_cons, List.map_cons,
        List.cons_append, List.cons.injEq, List.isChain_cons, ← continues_head_iff hx hitems,
        ← hform.more_eq_iff, hread]
      -- Once the token is read back, the rest starts where it was written.
      apply and_congr_right
      intro hmore
      rw [after_of_more_eq hmore]
      exact ih _ hblanks hitems

/-- Proper tokens, written out with any blanks, are read back exactly when no two of them that touch
glue. -/
theorem tokenize_print_iff {lead : String} {items : List Spaced} :
    lead.toList.all Lexeme.isBlank = true → (∀ x ∈ items, x.isProper = true) →
      (tokenize (print lead items) = items.map (·.token) ++ [.eof] ↔
        items.IsChain fun x y => x.sticks y = false) := by
  intro hlead hproper
  rw [tokenize_eq_map_reading, reading, toList_print]
  exact tokens_print_iff 0 hlead hproper

/-- A row in which every two tokens may touch, and a row in which two of them glue. -/
theorem tokenize_print_rows :
    (tokenize (print " " [⟨⟨.int, "12"⟩, ""⟩, ⟨⟨.ident, "ab"⟩, ""⟩, ⟨⟨.eq, "=="⟩, ""⟩,
        ⟨⟨.assign, "="⟩, "\t"⟩, ⟨⟨.eq, "=="⟩, ""⟩, ⟨⟨.illegal, "é"⟩, ""⟩, ⟨⟨.fnKeyword, "fn"⟩, ""⟩]) =
      [⟨.int, "12"⟩, ⟨.ident, "ab"⟩, ⟨.eq, "=="⟩, ⟨.assign, "="⟩, ⟨.eq, "=="⟩, ⟨.illegal, "é"⟩,
        ⟨.fnKeyword, "fn"⟩, .eof]) ∧
      tokenize (print "" [⟨⟨.bang, "!"⟩, ""⟩, ⟨⟨.eq, "=="⟩, "\n"⟩]) ≠
        [⟨.bang, "!"⟩, ⟨.eq, "=="⟩, .eof] := by
  refine ⟨?_, ?_⟩
  · exact (tokenize_print_iff (by decide) (by decide)).2 (by decide)
  · intro hread
    have hchain := (tokenize_print_iff (by decide) (by decide)).1 hread
    revert hchain
    decide

end MonkeyTokens
