import MonkeyTokens.Proofs.Between
import MonkeyTokens.Proofs.Positions

/-!
# Runs — a run of bytes ends at the first byte that does not belong to it

A loop is a function that makes one round, and `Ends` says after how many rounds the loop has which result. The loop of
a run goes on as long as the byte under the cursor belongs to a class of bytes, and nothing counts how far. It ends
because an advance leads on as long as there is a byte at all. Where it ends is said here without the cursor: at the
first position from its own on that has no byte or a byte outside the class. Main statements:

- `Ends.iff`: a loop that ends has one number of rounds and one result;
- `Placed.exists_run`: a run is some advances over bytes of the class, and the loop ends after them;
- `Placed.stopsRun_eatWhile`, `Placed.pos_eatWhile_le`: it ends where a run has to, and at the first such place;
- `Placed.eatWhile_absorbs`: a run of a smaller class in front changes nothing;
- `eatWhile_is_longest_run`: all of this from wherever a walk leads.
-/

namespace MonkeyTokens

/-! ## Loops -/

/-- From the state `s`, the loop over the rounds ends after `n` of them, with the result `a`. -/
inductive Ends {σ α : Type} (round : σ → α ⊕ σ) : σ → Nat → α → Prop where
  | done {s : σ} {a : α} : round s = .inl a → Ends round s 1 a
  | next {s t : σ} {n : Nat} {a : α} : round s = .inr t → Ends round t n a → Ends round s (n + 1) a

/-- A loop that ends has one number of rounds and one result. -/
theorem Ends.iff {σ α : Type} {round : σ → α ⊕ σ} {s : σ} {n : Nat} {a : α} :
    Ends round s n a → ∀ m b, Ends round s m b ↔ m = n ∧ b = a := by
  intro h m b
  constructor
  · intro h'
    induction h generalizing m with
    | done hround =>
        cases h' with
        | done hround' => exact ⟨rfl, Sum.inl.inj (hround'.symm.trans hround)⟩
        | next hround' _ => cases hround'.symm.trans hround
    | next hround _ ih =>
        cases h' with
        | done hround' => cases hround'.symm.trans hround
        | next hround' hrest =>
            cases hround'.symm.trans hround
            rcases ih _ hrest with ⟨rfl, rfl⟩
            exact ⟨rfl, rfl⟩
  · rintro ⟨rfl, rfl⟩
    exact h

/-! ## Runs -/

/-- A run of the class goes no further than the position: the source ends there, or the byte there is outside the
class. -/
def Source.StopsRun (source : Source) (p : UInt8 → Bool) (i : Nat) : Prop :=
  i = source.bytes.length ∨ ∃ b, source.bytes[i]? = some b ∧ p b = false

namespace Cursor

variable {c : Cursor} {p q : UInt8 → Bool}

/-- A round of a run: an advance, unless the byte under the cursor does not belong to the class. -/
def runRound (p : UInt8 → Bool) (c : Cursor) : Cursor ⊕ Cursor :=
  if c.current.any p then .inr c.advance else .inl c

/-- The run of a class consists of `n` advances over bytes of the class. -/
structure RunsFor (c : Cursor) (p : UInt8 → Bool) (n : Nat) : Prop where
  eatWhile_eq : c.eatWhile p = c.advanceBy n
  pos_add_le : c.pos + n ≤ c.source.size
  any_byteAt? : ∀ i < n, (c.source.byteAt? (c.pos + i)).any p = true
  ends : Ends (runRound p) c (n + 1) (c.eatWhile p)

/-- Outside the class there is nothing to pass. -/
theorem Placed.runsFor_zero (h : c.Placed) : c.current.any p = false → c.RunsFor p 0 := by
  intro hp
  have hstop := eatWhile_of_not hp
  refine ⟨hstop, h.pos_le, fun i hi => absurd hi (Nat.not_lt_zero i), ?_⟩
  rw [hstop]
  exact .done (by simp [runRound, hp])

/-- A byte of the class is passed, and the run goes on behind it. -/
theorem Placed.runsFor_succ (h : c.Placed) {n : Nat} :
    c.current.any p = true → c.advance.RunsFor p n → c.RunsFor p (n + 1) := by
  intro hp hrest
  have hpos := h.pos_advance_of_any hp
  have hgo := h.eatWhile_of_any hp
  refine ⟨hgo.trans hrest.eatWhile_eq, ?_, fun i hi => ?_, ?_⟩
  · have hle := hrest.pos_add_le
    rw [hpos, source_advance] at hle
    omega
  · cases i with
    | zero =>
        rw [Nat.add_zero, ← h.current_eq]
        exact hp
    | succ i =>
        have hany := hrest.any_byteAt? i (Nat.lt_of_succ_lt_succ hi)
        rwa [source_advance, hpos, Nat.add_assoc, Nat.add_comm 1 i] at hany
  · rw [hgo]
    exact .next (by simp [runRound, hp]) hrest.ends

/-- A run is some advances over bytes of the class, and its loop ends after them. -/
theorem Placed.exists_run (h : c.Placed) (p : UInt8 → Bool) : ∃ n, c.RunsFor p n := by
  fun_induction Cursor.eatWhile p c with
  | case1 c hgo ih =>
      rcases ih h.advance with ⟨n, hrest⟩
      exact ⟨n + 1, h.runsFor_succ hgo.1 hrest⟩
  | case2 c hstop =>
      have hp := h.any_current_eatWhile p
      rw [Cursor.eatWhile, if_neg hstop] at hp
      exact ⟨0, h.runsFor_zero hp⟩

/-- The number of advances shows in the position. -/
theorem RunsFor.pos_eatWhile {n : Nat} (h : c.RunsFor p n) (hc : c.Placed) :
    (c.eatWhile p).pos = c.pos + n := by
  rw [h.eatWhile_eq, hc.pos_advanceBy]
  exact Nat.min_eq_left h.pos_add_le

theorem Placed.runsFor (h : c.Placed) (p : UInt8 → Bool) :
    c.RunsFor p ((c.eatWhile p).pos - c.pos) := by
  rcases h.exists_run p with ⟨n, hrun⟩
  rwa [hrun.pos_eatWhile h, Nat.add_sub_cancel_left]

/-! ## Where a run ends -/

/-- All bytes that a run passes belong to the class. -/
theorem Placed.exists_byte_of_lt (h : c.Placed) {i : Nat} :
    c.pos ≤ i → i < (c.eatWhile p).pos → ∃ b, c.source.bytes[i]? = some b ∧ p b = true := by
  intro hle hlt
  have hany := (h.runsFor p).any_byteAt? (i - c.pos) (by omega)
  rw [Nat.add_sub_cancel' hle, Source.byteAt?_eq] at hany
  exact (Option.any_eq_true _ _).1 hany

/-- A run ends where it has to. -/
theorem Placed.stopsRun_eatWhile (h : c.Placed) : c.source.StopsRun p (c.eatWhile p).pos := by
  have hstop := h.any_current_eatWhile p
  have hbyte := (h.eatWhile p).current_eq
  rw [source_eatWhile] at hbyte
  cases hcurrent : (c.eatWhile p).current with
  | none =>
      have hend := (h.eatWhile p).isAtEnd_iff.1 (by rw [isAtEnd, hcurrent]; rfl)
      rw [source_eatWhile, ← Source.length_bytes] at hend
      exact .inl hend
  | some b =>
      rw [hcurrent] at hbyte hstop
      rw [Source.byteAt?_eq] at hbyte
      exact .inr ⟨b, hbyte.symm, hstop⟩

/-- A run ends no later than it has to. -/
theorem Placed.pos_eatWhile_le (h : c.Placed) {i : Nat} :
    c.pos ≤ i → c.source.StopsRun p i → (c.eatWhile p).pos ≤ i := by
  intro hle hstop
  apply Nat.le_of_not_lt
  intro hlt
  rcases h.exists_byte_of_lt hle hlt with ⟨b, hb, hp⟩
  rcases hstop with rfl | ⟨b', hb', hp'⟩
  · rw [List.getElem?_eq_none (Nat.le_refl _)] at hb
    cases hb
  · rw [hb] at hb'
    obtain rfl := Option.some.inj hb'
    exact Bool.false_ne_true (hp'.symm.trans hp)

/-! ## Runs after runs -/

/-- A run of a smaller class in front changes nothing. -/
theorem Placed.eatWhile_absorbs (h : c.Placed) :
    (∀ b, p b = true → q b = true) → (c.eatWhile p).eatWhile q = c.eatWhile q := by
  intro hpq
  have hrun := h.runsFor p
  rw [hrun.eatWhile_eq]
  apply h.eatWhile_advanceBy
  intro i hi
  rcases (Option.any_eq_true _ _).1 (hrun.any_byteAt? i hi) with ⟨b, hb, hp⟩
  exact (Option.any_eq_true _ _).2 ⟨b, hb, hpq b hp⟩

/-- Wherever a walk leads, the loop of a run ends, after one round for each byte that it passes and one that finds
nothing to pass. It ends at the first position from the cursor's own on where the source ends or has a byte outside
the class, so all bytes passed belong to the class, and the cursor is the one that as many advances lead to. A second
run passes nothing, and a run of a larger class ends where it ends without the first one. -/
theorem eatWhile_is_longest_run (source : Source) (moves : List Move) (p : UInt8 → Bool) :
    let c := (ofSource source).walk moves
    let stop := c.eatWhile p
    (∀ n r, Ends (runRound p) c n r ↔ n = stop.pos - c.pos + 1 ∧ r = stop) ∧
      c.pos ≤ stop.pos ∧ source.StopsRun p stop.pos ∧
      (∀ i, c.pos ≤ i → source.StopsRun p i → stop.pos ≤ i) ∧
      (∀ i, c.pos ≤ i → i < stop.pos → ∃ b, source.bytes[i]? = some b ∧ p b = true) ∧
      stop = c.walk (List.replicate (stop.pos - c.pos) .advance) ∧
      stop.eatWhile p = stop ∧
      ∀ q : UInt8 → Bool, (∀ b, p b = true → q b = true) → stop.eatWhile q = c.eatWhile q := by
  intro c stop
  have h : c.Placed := (placed_ofSource source).walk moves
  have hsource : c.source = source := (source_walk _ _).trans (source_ofSource source)
  have hrun := h.runsFor p
  rw [← hsource]
  refine ⟨hrun.ends.iff, h.pos_le_pos_eatWhile p, h.stopsRun_eatWhile, fun i => h.pos_eatWhile_le,
    fun i => h.exists_byte_of_lt, ?_, eatWhile_of_not (h.any_current_eatWhile p), fun q => h.eatWhile_absorbs⟩
  rw [walk_replicate_advance]
  exact hrun.eatWhile_eq

/-- From inside a character to its end, and over all bytes outside ASCII instead. -/
theorem eatWhile_is_longest_run_sample :
    let c := (ofSource "é€!").walk [.advance]
    let inside : UInt8 → Bool := fun b => 0x80 ≤ b && b < 0xC0
    let stop := c.eatWhile inside
    stop.pos = 2 ∧ stop.pos ≤ (Source.bytes "é€!").length ∧
      (∃ b, (Source.bytes "é€!")[1]? = some b ∧ inside b = true) ∧
      stop.eatWhile (fun b => 0x80 ≤ b) = c.eatWhile fun b => 0x80 ≤ b := by
  intro c inside stop
  have hstart : c.pos = 1 := by decide +kernel
  have hstop : stop.pos = 2 := by decide +kernel
  have hend : Source.StopsRun "é€!" inside (Source.bytes "é€!").length := .inl rfl
  have hstart_le : c.pos ≤ (Source.bytes "é€!").length := by decide +kernel
  have hlarger : ∀ b, inside b = true → decide (0x80 ≤ b) = true :=
    fun b hb => (Bool.and_eq_true_iff.1 hb).1
  rcases eatWhile_is_longest_run "é€!" [.advance] inside with ⟨_, _, _, hleast, hall, _, _, habsorbs⟩
  exact ⟨hstop, hleast _ hstart_le hend, hall 1 (Nat.le_of_eq hstart) (Nat.lt_of_lt_of_eq Nat.one_lt_two hstop.symm),
    habsorbs _ hlarger⟩

end Cursor

end MonkeyTokens
