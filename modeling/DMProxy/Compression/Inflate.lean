import Mathlib.Data.List.Basic

/-!
# Decompression in steps

A format of compressed streams is a decoder that takes and gives one byte at a time.  A library
call runs it on the input that is there until the room for output is used up; `Documented` is
what can be relied on of such a call.
-/

namespace DMProxy.Compression

universe u

/-- What a decoder does next. -/
inductive Move (σ : Type u) where
  | read (next : UInt8 → σ)
  | emit (byte : UInt8) (next : σ)
  | ended
  | corrupt
  | wantsDictionary

/-- A decoder, which gives only finitely many bytes before it takes another one. -/
structure Format (σ : Type u) where
  move : σ → Move σ
  owed : σ → Nat
  decreases : ∀ {state next : σ} {byte : UInt8}, move state = .emit byte next →
    owed next < owed state

/-- The decoder goes from one state to another, taking the input and giving the output. -/
inductive Runs {σ : Type u} (format : Format σ) : σ → List UInt8 → List UInt8 → σ → Prop where
  | refl (state : σ) : Runs format state [] [] state
  | read {state final : σ} {next : UInt8 → σ} {byte : UInt8} {input output : List UInt8}
      (moved : format.move state = .read next)
      (rest : Runs format (next byte) input output final) :
      Runs format state (byte :: input) output final
  | emit {state next final : σ} {byte : UInt8} {input output : List UInt8}
      (moved : format.move state = .emit byte next) (rest : Runs format next input output final) :
      Runs format state input (byte :: output) final

/-- The decoder makes no more move on its own when no more input comes. -/
def Format.Halted {σ : Type u} (format : Format σ) (state : σ) (rest : List UInt8) : Prop :=
  match format.move state with
  | .read _ => rest = []
  | .emit _ _ => False
  | .ended | .corrupt | .wantsDictionary => True

/-- The decoder gives a byte before it takes more than one of the input. -/
def Format.Due {σ : Type u} (format : Format σ) (state : σ) (rest : List UInt8) : Prop :=
  match format.move state, rest with
  | .emit _ _, _ => True
  | .read next, byte :: _ => ∃ given after, format.move (next byte) = .emit given after
  | _, _ => False

variable {σ : Type u} {format : Format σ}

/-- A run up to a halt goes on from wherever another run on the same input has come. -/
theorem Runs.split {state middle final : σ} {taken left taken' left' output output' : List UInt8}
    (one : Runs format state taken output middle)
    (two : Runs format state taken' output' final) (halted : format.Halted final left')
    (same : taken ++ left = taken' ++ left') :
    ∃ more given, Runs format middle more given final ∧ taken' = taken ++ more ∧
      output' = output ++ given ∧ left = more ++ left' := by
  induction one generalizing taken' output' with
  | refl => exact ⟨taken', output', two, rfl, rfl, same⟩
  | read moved rest ih =>
      cases two with
      | refl =>
          simp only [Format.Halted, moved] at halted
          subst halted
          cases same
      | read moved' rest' =>
          cases moved.symm.trans moved'
          simp only [List.cons_append, List.cons.injEq] at same
          rcases same with ⟨rfl, same⟩
          rcases ih rest' same with ⟨more, given, run, rfl, rfl, split⟩
          exact ⟨more, given, run, rfl, rfl, split⟩
      | emit moved' => cases moved.symm.trans moved'
  | emit moved rest ih =>
      cases two with
      | refl => simp only [Format.Halted, moved] at halted
      | read moved' => cases moved.symm.trans moved'
      | emit moved' rest' =>
          cases moved.symm.trans moved'
          rcases ih rest' same with ⟨more, given, run, rfl, rfl, split⟩
          exact ⟨more, given, run, rfl, rfl, split⟩

/-- A halted decoder stays where it is. -/
theorem Runs.of_halted {state final : σ} {input left output : List UInt8}
    (run : Runs format state input output final) (halted : format.Halted state (input ++ left)) :
    input = [] ∧ output = [] ∧ final = state := by
  cases run with
  | refl => exact ⟨rfl, rfl, rfl⟩
  | read moved => simp [Format.Halted, moved] at halted
  | emit moved => simp [Format.Halted, moved] at halted

theorem Runs.ne_nil_of_emit {state next final : σ} {byte : UInt8} {input output left : List UInt8}
    (run : Runs format state input output final) (moved : format.move state = .emit byte next)
    (halted : format.Halted final left) : output ≠ [] := by
  cases run with
  | refl => simp only [Format.Halted, moved] at halted
  | read moved' => cases moved.symm.trans moved'
  | emit moved' rest => simp

/-- Output that is due comes before the halt. -/
theorem Runs.ne_nil_of_due {state final : σ} {input output left : List UInt8}
    (run : Runs format state input output final) (halted : format.Halted final left)
    (due : format.Due state (input ++ left)) : output ≠ [] := by
  cases run with
  | refl =>
      simp only [Format.Halted] at halted
      simp only [Format.Due] at due
      cases moved : format.move state with
      | emit => simp only [moved] at halted
      | read =>
          simp only [moved] at halted due
          subst halted
          exact due.elim
      | ended | corrupt | wantsDictionary => simp only [moved] at due
  | read moved rest =>
      simp only [Format.Due, moved, List.cons_append] at due
      rcases due with ⟨given, after, gives⟩
      exact rest.ne_nil_of_emit gives halted
  | emit moved rest => simp

/-- There is one halt for each input. -/
theorem Runs.unique {state final final' : σ} {taken left taken' left' output output' : List UInt8}
    (one : Runs format state taken output final) (halted : format.Halted final left)
    (two : Runs format state taken' output' final') (halted' : format.Halted final' left')
    (same : taken ++ left = taken' ++ left') : output' = output ∧ final' = final := by
  rcases one.split two halted' same with ⟨more, given, run, _, rfl, rfl⟩
  rcases run.of_halted halted with ⟨_, rfl, rfl⟩
  exact ⟨List.append_nil output, rfl⟩

/-- Every input is run on up to a halt. -/
theorem Format.exists_halt (format : Format σ) (state : σ) (input : List UInt8) :
    ∃ taken left output final, Runs format state taken output final ∧ input = taken ++ left ∧
      format.Halted final left := by
  induction input generalizing state with
  | nil =>
      induction owed : format.owed state using Nat.strongRecOn generalizing state with
      | ind amount ih =>
          subst owed
          cases moved : format.move state with
          | emit byte next =>
              rcases ih _ (format.decreases moved) next rfl with
                ⟨taken, left, output, final, run, split, halted⟩
              exact ⟨taken, left, byte :: output, final, .emit moved run, split, halted⟩
          | read | ended | corrupt | wantsDictionary =>
              exact ⟨[], [], [], state, .refl state, rfl, by simp [Halted, moved]⟩
  | cons byte input later =>
      induction owed : format.owed state using Nat.strongRecOn generalizing state with
      | ind amount ih =>
          subst owed
          cases moved : format.move state with
          | read next =>
              rcases later (next byte) with ⟨taken, left, output, final, run, rfl, halted⟩
              exact ⟨byte :: taken, left, output, final, .read moved run, rfl, halted⟩
          | emit given next =>
              rcases ih _ (format.decreases moved) next rfl with
                ⟨taken, left, output, final, run, split, halted⟩
              exact ⟨taken, left, given :: output, final, .emit moved run, split, halted⟩
          | ended | corrupt | wantsDictionary =>
              exact ⟨[], byte :: input, [], state, .refl state, rfl, by simp [Halted, moved]⟩

/-! ## Calls of the library -/

/-- The return codes of `inflate`. -/
inductive Status where
  | ok
  | streamEnd
  | needDict
  | dataError
  | memError
  | bufError
  deriving DecidableEq, Repr

/-- What a call leaves: its return code, the decoder, the input that was not taken and the
output. -/
structure Inflated (σ : Type u) where
  status : Status
  state : σ
  rest : List UInt8
  output : List UInt8

/-- What a call returns if it has to stop for want of input or of room. -/
def stopStatus (input : List UInt8) (result : Inflated σ) : Status :=
  if result.output = [] ∧ result.rest = input then .bufError else .ok

/-- The reason for which a call stops, and its return code. -/
def Stops (format : Format σ) (input : List UInt8) (room : Nat) (result : Inflated σ) : Prop :=
  match format.move result.state with
  | .ended => result.status = .streamEnd
  | .corrupt => result.status = .dataError
  | .wantsDictionary => result.status = .needDict
  | .read _ =>
      (result.rest = [] ∨ result.output.length = room) ∧ result.status = stopStatus input result
  | .emit _ _ => result.output.length = room ∧ result.status = stopStatus input result

/-- A call takes input and gives output until one of them is exhausted, or the stream has
ended or turned out to be none. -/
structure Documented (format : Format σ) (inflate : σ → List UInt8 → Nat → Inflated σ) :
    Prop where
  runs : ∀ state input room, ∃ taken, input = taken ++ (inflate state input room).rest ∧
    Runs format state taken (inflate state input room).output (inflate state input room).state
  fits : ∀ state input room, (inflate state input room).output.length ≤ room
  stops : ∀ state input room, Stops format input room (inflate state input room)

/-- A call that stops short only where the decoder needs room: with a byte to give, or inside a
stored block, where it copies the next one. -/
structure Prompt (format : Format σ) (inflate : σ → List UInt8 → Nat → Inflated σ) : Prop extends
    Documented format inflate where
  due : ∀ state input room,
    format.Halted (inflate state input room).state (inflate state input room).rest ∨
      format.Due (inflate state input room).state (inflate state input room).rest

/-- A call does its part of a run up to a halt, and all of it if it halts the decoder. -/
theorem Documented.part {inflate : σ → List UInt8 → Nat → Inflated σ}
    (documented : Documented format inflate) {state final : σ} {taken left output : List UInt8}
    (run : Runs format state taken output final) (halted : format.Halted final left)
    (room : Nat) :
    ∃ more given, Runs format (inflate state (taken ++ left) room).state more given final ∧
      output = (inflate state (taken ++ left) room).output ++ given ∧
      (inflate state (taken ++ left) room).rest = more ++ left ∧
      (format.Halted (inflate state (taken ++ left) room).state
          (inflate state (taken ++ left) room).rest →
        given = [] ∧ final = (inflate state (taken ++ left) room).state) := by
  rcases documented.runs state (taken ++ left) room with ⟨used, split, call⟩
  rcases call.split run halted split.symm with ⟨more, given, later, _, output, rest⟩
  refine ⟨more, given, later, output, rest, ?_⟩
  intro still
  rw [rest] at still
  exact (later.of_halted still).2

/-! ## Every format has such a call -/

/-- Run the decoder for at most so many moves: its state, the input that is left and the
output. -/
def Format.advance (format : Format σ) :
    Nat → σ → List UInt8 → Nat → σ × List UInt8 × List UInt8
  | 0, state, input, _ => (state, input, [])
  | fuel + 1, state, input, room =>
      match format.move state, input, room with
      | .read next, byte :: input, room => format.advance fuel (next byte) input room
      | .emit byte next, input, room + 1 =>
          let result := format.advance fuel next input room
          (result.1, result.2.1, byte :: result.2.2)
      | _, input, _ => (state, input, [])

/-- The return code in a state. -/
def Format.statusAt (format : Format σ) (input : List UInt8)
    (reached : σ × List UInt8 × List UInt8) : Status :=
  match format.move reached.1 with
  | .ended => .streamEnd
  | .corrupt => .dataError
  | .wantsDictionary => .needDict
  | .read _ | .emit _ _ => if reached.2.2 = [] ∧ reached.2.1 = input then .bufError else .ok

/-- Every move takes a byte of the input or of the room. -/
def Format.inflate (format : Format σ) (state : σ) (input : List UInt8) (room : Nat) :
    Inflated σ :=
  let reached := format.advance (input.length + room + 1) state input room
  ⟨format.statusAt input reached, reached.1, reached.2.1, reached.2.2⟩

theorem Format.runs_advance (format : Format σ) (fuel : Nat) (state : σ) (input : List UInt8)
    (room : Nat) : ∃ taken, input = taken ++ (format.advance fuel state input room).2.1 ∧
      Runs format state taken (format.advance fuel state input room).2.2
        (format.advance fuel state input room).1 ∧
      (format.advance fuel state input room).2.2.length ≤ room := by
  induction fuel generalizing state input room with
  | zero => exact ⟨[], rfl, .refl state, Nat.zero_le _⟩
  | succ fuel ih =>
      cases moved : format.move state with
      | read next =>
          cases input with
          | nil =>
              simp only [advance, moved]
              exact ⟨[], rfl, .refl _, Nat.zero_le _⟩
          | cons byte input =>
              simp only [advance, moved]
              rcases ih (next byte) input room with ⟨taken, split, run, fits⟩
              exact ⟨byte :: taken, congrArg (byte :: ·) split, .read moved run, fits⟩
      | emit byte next =>
          cases room with
          | zero =>
              simp only [advance, moved]
              exact ⟨[], rfl, .refl _, Nat.zero_le _⟩
          | succ room =>
              simp only [advance, moved]
              rcases ih next input room with ⟨taken, split, run, fits⟩
              exact ⟨taken, split, .emit moved run, Nat.succ_le_succ fits⟩
      | ended | corrupt | wantsDictionary =>
          simp only [advance, moved]
          exact ⟨[], rfl, .refl _, Nat.zero_le _⟩

/-- With enough moves, it stops for a reason. -/
theorem Format.advance_stops (format : Format σ) {fuel : Nat} {state : σ} {input : List UInt8}
    {room : Nat} (enough : input.length + room < fuel) :
    match format.move (format.advance fuel state input room).1 with
    | .read _ => (format.advance fuel state input room).2.1 = []
    | .emit _ _ => (format.advance fuel state input room).2.2.length = room
    | .ended | .corrupt | .wantsDictionary => True := by
  induction fuel generalizing state input room with
  | zero => exact absurd enough (Nat.not_lt_zero _)
  | succ fuel ih =>
      cases moved : format.move state with
      | read next =>
          cases input with
          | nil => simp [advance, moved]
          | cons byte input =>
              simp only [advance, moved]
              exact ih (by simp only [List.length_cons] at enough; omega)
      | emit byte next =>
          cases room with
          | zero => simp [advance, moved]
          | succ room =>
              have later := @ih next input room (by omega)
              simp only [advance, moved, List.length_cons, Nat.succ_inj]
              exact later
      | ended | corrupt | wantsDictionary => simp [advance, moved]

theorem Format.prompt_inflate (format : Format σ) : Prompt format format.inflate where
  runs := by
    intro state input room
    rcases format.runs_advance (input.length + room + 1) state input room with
      ⟨taken, split, run, _⟩
    exact ⟨taken, split, run⟩
  fits := by
    intro state input room
    rcases format.runs_advance (input.length + room + 1) state input room with ⟨_, _, _, fits⟩
    exact fits
  stops := by
    intro state input room
    have stopped := @Format.advance_stops _ format _ state _ _
      (Nat.lt_add_one (input.length + room))
    simp only [Stops, inflate, statusAt, stopStatus]
    split at stopped
    next moved =>
      simp only [moved]
      exact ⟨.inl stopped, rfl⟩
    next moved =>
      simp only [moved]
      exact ⟨stopped, rfl⟩
    all_goals
      next moved => simp only [moved]
  due := by
    intro state input room
    have stopped := @Format.advance_stops _ format _ state _ _
      (Nat.lt_add_one (input.length + room))
    simp only [Halted, Due, inflate]
    split at stopped
    next moved =>
      simp only [moved]
      exact .inl stopped
    next moved =>
      simp only [moved]
      exact .inr trivial
    all_goals
      next moved =>
        simp only [moved]
        exact .inl trivial

end DMProxy.Compression
