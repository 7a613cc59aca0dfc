import Mathlib.Algebra.Group.Nat.Defs
import Troupe.Actor.Basic
import Troupe.Proofs.Value.Position

/-!
# Arguments are checked before a call

A function with a signature is called with a list of values.  All of them are converted before anything is
run: their number is compared first, whatever they are, and then they are converted in order, so the error
is that of the first one that does not convert (`Arguments.Misfit`).

`Operation.noted` writes down what a function is run with, so it shows that a call runs its function once,
with the converted arguments, or not at all (`Arguments.checked_before_call`).

An index is a word that is taken as a signed position, so no signature may be longer than there are
positions from the front.
-/

namespace Troupe

namespace Arguments

/-- The argument at a place. -/
def get : {shapes : List Shape} → Arguments shapes → (i : Fin shapes.length) → (shapes.get i).Carrier
  | _ :: _, (x, _), ⟨0, _⟩ => x
  | _ :: _, (_, others), ⟨i + 1, inside⟩ => get others ⟨i, Nat.lt_of_succ_lt_succ inside⟩

/-- The first of some values that does not convert, with what was wanted of it. -/
structure Misfit (shapes : List Shape) (xs : List Value) (i : Nat) (s : Shape) (v : Value) : Prop where
  /-- what was wanted at the place -/
  wanted : shapes[i]? = some s
  /-- what is there -/
  found : xs[i]? = some v
  /-- it does not convert -/
  refused : s.extract? v = none
  /-- all values before it convert -/
  first : ∀ j < i, ∀ t w, shapes[j]? = some t → xs[j]? = some w → (t.extract? w).isSome

variable {s t : Shape} {shapes : List Shape} {v w : Value} {xs ys : List Value} {i k : Nat}

theorem misfit_zero (refused : s.extract? v = none) : Misfit (s :: shapes) (v :: xs) 0 s v :=
  ⟨rfl, rfl, refused, fun j early ↦ absurd early (Nat.not_lt_zero j)⟩

/-- Behind an element that converts, the first misfit is that of the rest. -/
theorem misfit_succ_iff (fits : (s.extract? v).isSome) :
    Misfit (s :: shapes) (v :: xs) (i + 1) t w ↔ Misfit shapes xs i t w := by
  constructor
  · rintro ⟨wanted, found, refused, first⟩
    exact ⟨wanted, found, refused, fun j early ↦ first (j + 1) (Nat.succ_lt_succ early)⟩
  · rintro ⟨wanted, found, refused, first⟩
    refine ⟨wanted, found, refused, fun j early u x ↦ ?_⟩
    cases j with
    | zero =>
      rintro ⟨⟩ ⟨⟩
      exact fits
    | succ j => exact first j (Nat.lt_of_succ_lt_succ early) u x

/-- The elements from one on are that one and those behind it. -/
theorem collect_cons (small : i < 2 ^ 63) (here : xs.drop i = v :: ys) :
    collect xs i (s :: shapes) = match s.extract? v with
      | none => .error (.invalidArgumentCast (.ofNat i) v.kind s.kind)
      | some x => (collect xs (i + 1) shapes).map (Prod.mk x) := by
  have found : xs[i]? = some v := by
    rw [← List.head?_drop, here, List.head?_cons]
  have get : Sequence.get xs (.ofNat i) s = match s.extract? v with
      | none => .error (.invalidArgumentCast (.ofNat i) v.kind s.kind)
      | some x => .ok x := by
    cases converted : s.extract? v <;>
      simp only [Sequence.get, Sequence.find?_ofNat small, found, converted]
  rw [collect, get]
  cases s.extract? v with
  | none => rfl
  | some x => cases collect xs (i + 1) shapes <;> rfl

/-- As long as something is wanted, there is an element for it. -/
theorem exists_drop_eq_cons (whole : (xs.drop i).length = (s :: shapes).length) :
    ∃ v, xs.drop i = v :: xs.drop (i + 1) ∧ (xs.drop (i + 1)).length = shapes.length := by
  obtain ⟨v, ys, here⟩ := List.exists_cons_of_length_eq_add_one whole
  have behind : xs.drop (i + 1) = ys := by rw [← List.drop_drop, here, List.drop_one, List.tail_cons]
  rw [here, List.length_cons, List.length_cons, Nat.add_right_cancel_iff] at whole
  exact ⟨v, behind ▸ here, behind ▸ whole⟩

/-- The elements from one on are collected if all of them convert. -/
theorem collect_eq_ok_iff {args : Arguments shapes} (whole : (xs.drop i).length = shapes.length)
    (few : i + shapes.length ≤ 2 ^ 63) :
    collect xs i shapes = .ok args ↔ ∀ k : Fin shapes.length,
      ∃ v, (xs.drop i)[k.val]? = some v ∧ (shapes.get k).extract? v = some (args.get k) := by
  induction shapes generalizing i with
  | nil => exact ⟨fun _ k ↦ k.elim0, fun _ ↦ rfl⟩
  | cons s rest ih =>
    obtain ⟨v, here, behind⟩ := exists_drop_eq_cons whole
    obtain ⟨x, others⟩ := args
    rw [List.length_cons] at few
    have parts : (∀ k : Fin (rest.length + 1), ∃ w, (v :: xs.drop (i + 1))[k.val]? = some w ∧
        ((s :: rest).get k).extract? w = some (@get (s :: rest) (x, others) k)) ↔
          s.extract? v = some x ∧ collect xs (i + 1) rest = .ok others := by
      rw [ih behind (by omega), Fin.forall_fin_succ]
      refine and_congr ⟨?_, fun fits ↦ ⟨v, rfl, fits⟩⟩ Iff.rfl
      rintro ⟨w, ⟨⟩, fits⟩
      exact fits
    rw [collect_cons (by omega) here, here]
    refine Iff.trans ?_ parts.symm
    cases s.extract? v with
    | none => simp
    | some y =>
      cases collect xs (i + 1) rest with
      | error e => simp [Except.map]
      | ok tail =>
        constructor
        · rintro ⟨⟩
          exact ⟨rfl, rfl⟩
        · rintro ⟨⟨⟩, ⟨⟩⟩
          rfl

/-- Otherwise the error is that of the first one that does not. -/
theorem collect_eq_error_iff {e : ValueError} (whole : (xs.drop i).length = shapes.length)
    (few : i + shapes.length ≤ 2 ^ 63) :
    collect xs i shapes = .error e ↔ ∃ k s v, Misfit shapes (xs.drop i) k s v ∧
      e = .invalidArgumentCast (.ofNat (i + k)) v.kind s.kind := by
  induction shapes generalizing i with
  | nil =>
    constructor
    · rintro ⟨⟩
    · rintro ⟨k, s, v, misfit, -⟩
      cases misfit.wanted
  | cons s rest ih =>
    obtain ⟨v, here, behind⟩ := exists_drop_eq_cons whole
    rw [List.length_cons] at few
    rw [collect_cons (by omega) here, here]
    cases converted : s.extract? v with
    | none =>
      constructor
      · rintro ⟨⟩
        exact ⟨0, s, v, misfit_zero converted, rfl⟩
      · rintro ⟨k, t, w, misfit, rfl⟩
        cases k with
        | zero =>
          obtain ⟨⟨⟩, ⟨⟩, -⟩ := misfit
          rfl
        | succ k =>
          have fits := misfit.first 0 (Nat.succ_pos k) s v rfl rfl
          simp [converted] at fits
    | some y =>
      have fits : (s.extract? v).isSome := by rw [converted, Option.isSome_some]
      have mapped : (collect xs (i + 1) rest).map (Prod.mk y) = .error e ↔
          collect xs (i + 1) rest = .error e := by
        cases collect xs (i + 1) rest <;> simp [Except.map]
      refine mapped.trans ((ih behind (by omega)).trans ⟨?_, ?_⟩)
      · rintro ⟨k, t, w, misfit, rfl⟩
        exact ⟨k + 1, t, w, (misfit_succ_iff fits).mpr misfit, by rw [Nat.add_assoc, Nat.add_comm 1 k]⟩
      · rintro ⟨k, t, w, misfit, rfl⟩
        cases k with
        | zero =>
          obtain ⟨⟨⟩, ⟨⟩, refused, -⟩ := misfit
          rw [converted] at refused
          cases refused
        | succ k =>
          exact ⟨k, t, w, (misfit_succ_iff fits).mp misfit, by rw [Nat.add_assoc, Nat.add_comm 1 k]⟩

/-! ## Argument lists -/

section Unpack

variable (few : shapes.length ≤ 2 ^ 63)
include few

theorem unpack_eq_ok_iff {args : Arguments shapes} :
    unpack shapes xs = .ok args ↔ xs.length = shapes.length ∧
      ∀ k : Fin shapes.length, ∃ v, xs[k.val]? = some v ∧ (shapes.get k).extract? v = some (args.get k) := by
  by_cases whole : xs.length = shapes.length
  · rw [unpack, if_pos whole, and_iff_right whole]
    exact collect_eq_ok_iff (i := 0) whole (by rwa [Nat.zero_add])
  · simp [unpack, whole]

theorem unpack_eq_error_iff (whole : xs.length = shapes.length) {e : ValueError} :
    unpack shapes xs = .error e ↔
      ∃ k s v, Misfit shapes xs k s v ∧ e = .invalidArgumentCast (.ofNat k) v.kind s.kind := by
  have collected := collect_eq_error_iff (e := e) (i := 0) whole (by rwa [Nat.zero_add])
  simp only [List.drop_zero, Nat.zero_add] at collected
  rwa [unpack, if_pos whole]

/-- Arguments unpack exactly if there are as many as wanted and each of them converts. -/
theorem unpack_isOk_iff :
    (∃ args, unpack shapes xs = .ok args) ↔ xs.length = shapes.length ∧
      ∀ k : Fin shapes.length, ∃ v, xs[k.val]? = some v ∧ ((shapes.get k).extract? v).isSome := by
  constructor
  · rintro ⟨args, unpacked⟩
    obtain ⟨whole, each⟩ := (unpack_eq_ok_iff few).mp unpacked
    refine ⟨whole, fun k ↦ ?_⟩
    obtain ⟨v, found, converted⟩ := each k
    exact ⟨v, found, by rw [converted, Option.isSome_some]⟩
  · rintro ⟨whole, each⟩
    cases unpacked : unpack shapes xs with
    | ok args => exact ⟨args, rfl⟩
    | error e =>
      obtain ⟨k, s, v, misfit, -⟩ := (unpack_eq_error_iff few whole).mp unpacked
      obtain ⟨inside, wanted⟩ := List.getElem?_eq_some_iff.mp misfit.wanted
      obtain ⟨w, found, fits⟩ := each ⟨k, inside⟩
      obtain rfl : v = w := Option.some.inj (misfit.found.symm.trans found)
      obtain rfl : shapes.get ⟨k, inside⟩ = s := wanted
      rw [misfit.refused] at fits
      cases fits

end Unpack

end Arguments

/-! ## Calls -/

namespace Operation

variable {μ σ : Type} {shapes : List Shape}

/-- An operation that states the shapes of its arguments.  A reader drops the state that its function
answers. -/
def typed (access : Access) (shapes : List Shape) (f : Arguments shapes → σ → μ → Reply × σ × μ) :
    Operation μ σ :=
  match access with
  | .reader => .typedReader shapes fun args s m ↦
    let (reply, _, m) := f args s m
    (reply, m)
  | .writer => .typedWriter shapes f

/-- The same function, which also writes down what it is run with. -/
def noted (f : Arguments shapes → σ → μ → Reply × σ × μ) (args : Arguments shapes) (s : σ) :
    List (Arguments shapes) × μ → Reply × σ × List (Arguments shapes) × μ
  | (log, m) =>
    let (reply, s, m) := f args s m
    (reply, s, log ++ [args], m)

/-- Arguments that unpack are what the function is run with, once. -/
theorem run_typed_noted_of_ok {xs : List Value} {args : Arguments shapes}
    (unpacked : Arguments.unpack shapes xs = .ok args) (access : Access)
    (f : Arguments shapes → σ → μ → Reply × σ × μ) (s : σ) (log : List (Arguments shapes)) (m : μ) :
    ∃ after, (typed access shapes (noted f)).run xs s (log, m) =
      ((f args s m).1, after, log ++ [args], (f args s m).2.2) := by
  cases access <;> simp [typed, typedReader, typedWriter, run, unpacked, noted]

/-- Arguments that do not unpack are answered with the error, and nothing is run. -/
theorem run_typed_of_error {xs : List Value} {e : ValueError}
    (refused : Arguments.unpack shapes xs = .error e) (access : Access)
    (f : Arguments shapes → σ → μ → Reply × σ × μ) (s : σ) (m : μ) :
    (typed access shapes f).run xs s m = (.error e.message, s, m) := by
  cases access with
  | reader => simp [typed, typedReader, run, refused]
  | writer => exact run_typedWriter_of_error refused f s m

end Operation

namespace Arguments

variable {μ σ : Type} {shapes : List Shape}

/-- Arguments unpack exactly if their number is right and each of them converts, and then to what each of
them converts to.  The error is that of the number, and otherwise that of the first misfit.  A call runs
its function once, with the unpacked arguments, or answers the error and leaves actor and memory alone. -/
theorem checked_before_call (few : shapes.length ≤ 2 ^ 63) (xs : List Value) :
    (∀ args, unpack shapes xs = .ok args ↔ xs.length = shapes.length ∧
      ∀ k : Fin shapes.length, ∃ v, xs[k.val]? = some v ∧ (shapes.get k).extract? v = some (args.get k)) ∧
    ((∃ args, unpack shapes xs = .ok args) ↔ xs.length = shapes.length ∧
      ∀ k : Fin shapes.length, ∃ v, xs[k.val]? = some v ∧ ((shapes.get k).extract? v).isSome) ∧
    (xs.length ≠ shapes.length → unpack shapes xs = .error (.arity shapes.length xs.length)) ∧
    (xs.length = shapes.length → ∀ e, unpack shapes xs = .error e ↔
      ∃ k s v, Misfit shapes xs k s v ∧ e = .invalidArgumentCast (.ofNat k) v.kind s.kind) ∧
    ∀ (access : Access) (f : Arguments shapes → σ → μ → Reply × σ × μ)
      (a : Actor (List (Arguments shapes) × μ) σ) (reply : PromiseRef)
      (log : List (Arguments shapes)) (m : μ),
      let (outcome, after, log', m') :=
        a.perform ⟨.typed access shapes (Operation.noted f), xs, reply⟩ (log, m)
      log' = log ++ (unpack shapes xs).toOption.toList ∧
        (∀ args, unpack shapes xs = .ok args → outcome = (f args a.state m).1.caught .function) ∧
        ∀ e, unpack shapes xs = .error e → outcome = .error e.message ∧ after = a ∧ m' = m := by
  refine ⟨fun args ↦ unpack_eq_ok_iff few, unpack_isOk_iff few, fun other ↦ if_neg other,
    fun whole e ↦ unpack_eq_error_iff few whole, fun access f a reply log m ↦ ?_⟩
  cases unpacked : unpack shapes xs with
  | ok args =>
    obtain ⟨after, run⟩ := Operation.run_typed_noted_of_ok unpacked access f a.state log m
    have performed : a.perform ⟨.typed access shapes (Operation.noted f), xs, reply⟩ (log, m) =
        ((f args a.state m).1.caught .function, { a with state := after }, log ++ [args],
          (f args a.state m).2.2) := by
      rw [Actor.perform, run]
    rw [performed]
    refine ⟨rfl, ?_, ?_⟩
    · rintro _ ⟨⟩
      rfl
    · rintro _ ⟨⟩
  | error e =>
    have performed : a.perform ⟨.typed access shapes (Operation.noted f), xs, reply⟩ (log, m) =
        (.error e.message, a, log, m) := by
      rw [Actor.perform, Operation.run_typed_of_error unpacked]
      rfl
    rw [performed]
    refine ⟨(List.append_nil log).symm, ?_, ?_⟩
    · rintro _ ⟨⟩
    · rintro _ ⟨⟩
      exact ⟨rfl, rfl, rfl⟩

/-- What a payment takes: a name, an amount and perhaps a fee. -/
def payment : List Shape := [.string, .int64, .option .int64]

/-- Adds the amount of a payment to what was paid so far. -/
def pay : Arguments payment → Int → Unit → Reply × Int × Unit
  | (_, amount, _), paid, m => (.value .null, paid + Int64.toInt amount, m)

/-- A payment without a fee. -/
def seven : Arguments payment := ("alice", (7 : Int64), none, ())

/-- An amount may be a text that spells it, and the fee may be missing.  Of two texts that spell no number,
the first one is named, and nothing is paid. -/
theorem checked_before_call_payment :
    let teller : Actor (List (Arguments payment) × Unit) Int := ⟨[], 5, .empty⟩
    let attempt (xs : List Value) :=
      teller.perform ⟨.typed .writer payment (Operation.noted pay), xs, ⟨0⟩⟩ ([], ())
    let good : List Value := [.string "alice", .string "7", .null]
    let bad : List Value := [.string "alice", .string "x", .string "y"]
    payment.length ≤ 2 ^ 63 ∧ unpack payment good = .ok seven ∧ (attempt good).2.2.1 = [seven] ∧
      unpack payment bad = .error (.invalidArgumentCast 1 .string .int) ∧
      (attempt bad).2.2.1 = [] ∧ (attempt bad).2.1 = teller := by
  intro teller attempt good bad
  have few : payment.length ≤ 2 ^ 63 := by decide
  obtain ⟨converts, -, -, -, called⟩ := checked_before_call (μ := Unit) (σ := Int) few good
  obtain ⟨-, -, -, refuses, dropped⟩ := checked_before_call (μ := Unit) (σ := Int) few bad
  have amount : Shape.int64? (.string "7") = some 7 := by decide
  have unpacked : unpack payment good = .ok seven := by
    refine (converts _).mpr ⟨rfl, fun k ↦ ?_⟩
    match k with
    | ⟨0, _⟩ => exact ⟨_, rfl, rfl⟩
    | ⟨1, _⟩ => exact ⟨_, rfl, amount⟩
    | ⟨2, _⟩ => exact ⟨_, rfl, rfl⟩
  have misfit : Misfit payment bad 1 .int64 (.string "x") := by
    refine ⟨rfl, rfl, by decide, fun j early t w wanted found ↦ ?_⟩
    obtain rfl : j = 0 := Nat.lt_one_iff.mp early
    cases wanted
    cases found
    rfl
  have refused := (refuses rfl _).mpr ⟨1, .int64, .string "x", misfit, rfl⟩
  obtain ⟨noted, -⟩ := called .writer pay teller ⟨0⟩ [] ()
  obtain ⟨empty, -, kept⟩ := dropped .writer pay teller ⟨0⟩ [] ()
  rw [unpacked] at noted
  rw [refused] at empty
  exact ⟨few, unpacked, noted, refused, empty, (kept _ refused).2.1⟩

end Arguments

end Troupe
