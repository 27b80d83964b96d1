import Mathlib.Logic.Relation

/-!
# Classic BPF

The five instructions of classic BPF that a syscall filter needs, over one accumulator.  A jump
carries two unsigned displacements from the next instruction, so control only moves forward and
every run is over after at most as many steps as the program has instructions.

* `eval`: the evaluator, with the program's length as fuel.
* `Returns`: the same machine as a relation, one rule per instruction; `eval_of_returns` carries
  a derivation over to the evaluator.
* `LoadsAt`, `JumpsAt`, `ReturnsAt`: what stands at a position, with jumps given by their targets.
* `WellFormed`: no path leaves the program; `WellFormed.returns_of_stuck`: a path that cannot go
  on has come to a return.
-/

namespace Foundations.ClassicBpf

abbrev Word := BitVec 32

structure Instruction where
  code : BitVec 16
  jt : BitVec 8 := 0
  jf : BitVec 8 := 0
  k : Word

/-- The comparison of a conditional jump. -/
inductive Test where
  | eq
  | ge
  | set

def Test.holds : Test → Word → Word → Bool
  | .eq, acc, k => acc == k
  | .ge, acc, k => k.toNat ≤ acc.toNat
  | .set, acc, k => acc &&& k != 0

inductive Op where
  | load
  | jump (test : Test)
  | ret

def decode (code : BitVec 16) : Option Op :=
  if code = 0x20 then some .load
  else if code = 0x15 then some (.jump .eq)
  else if code = 0x35 then some (.jump .ge)
  else if code = 0x45 then some (.jump .set)
  else if code = 0x06 then some .ret
  else none

/-- Where a jump at `pc` goes on. -/
def Instruction.next (ins : Instruction) (pc : Nat) (taken : Bool) : Nat :=
  pc + 1 + (if taken then ins.jt else ins.jf).toNat

/-! ## Evaluation -/

section

variable (program : List Instruction) (input : Word → Option Word)

/-- The run from `pc` with `acc` in the accumulator: `none` when it leaves the program, meets an
unknown opcode or loads from outside its input. -/
def evalFrom : Nat → Nat → Word → Option Word
  | 0, _, _ => none
  | fuel + 1, pc, acc =>
    match program[pc]? with
    | none => none
    | some ins =>
      match decode ins.code with
      | none => none
      | some .ret => some ins.k
      | some .load => (input ins.k).bind (evalFrom fuel (pc + 1))
      | some (.jump test) => evalFrom fuel (ins.next pc (test.holds acc ins.k)) acc

/-- The value a program returns, started at its first instruction on an empty accumulator. -/
def eval : Option Word := evalFrom program input program.length 0 0

/-- The same machine as a relation: from `pc` and `acc` the program returns `result`. -/
inductive Returns : Nat → Word → Word → Prop
  | ret {pc : Nat} {acc : Word} {ins : Instruction}
      (fetched : program[pc]? = some ins) (decoded : decode ins.code = some .ret) :
      Returns pc acc ins.k
  | load {pc : Nat} {acc value result : Word} {ins : Instruction}
      (fetched : program[pc]? = some ins) (decoded : decode ins.code = some .load)
      (loaded : input ins.k = some value) (rest : Returns (pc + 1) value result) :
      Returns pc acc result
  | jump {pc : Nat} {acc result : Word} {ins : Instruction} {test : Test}
      (fetched : program[pc]? = some ins) (decoded : decode ins.code = some (.jump test))
      (rest : Returns (ins.next pc (test.holds acc ins.k)) acc result) :
      Returns pc acc result

end

variable {program : List Instruction} {input : Word → Option Word}

theorem Instruction.lt_next (ins : Instruction) (pc : Nat) (taken : Bool) :
    pc < ins.next pc taken := by
  unfold Instruction.next
  omega

variable {pc onTrue onFalse pc' : Nat} {acc result k : Word}

/-- Fuel for the instructions from `pc` on is enough, since no jump goes back. -/
theorem evalFrom_of_returns (returns : Returns program input pc acc result) :
    ∀ fuel, program.length ≤ fuel + pc → evalFrom program input fuel pc acc = some result := by
  -- Every rule fetches an instruction, so `pc` is inside the program and some fuel is left.
  have spare {pc : Nat} {ins : Instruction} (got : program[pc]? = some ins) (fuel : Nat)
      (enough : program.length ≤ fuel + pc) :
      ∃ fuel', fuel = fuel' + 1 := by
    obtain ⟨inside, _⟩ := List.getElem?_eq_some_iff.mp got
    exact ⟨fuel - 1, by omega⟩
  induction returns with
  | ret got dec =>
    intro fuel enough
    obtain ⟨fuel, rfl⟩ := spare got fuel enough
    simp only [evalFrom, got, dec]
  | load got dec loaded rest ih =>
    intro fuel enough
    obtain ⟨fuel, rfl⟩ := spare got fuel enough
    simp only [evalFrom, got, dec, loaded, Option.bind_some]
    exact ih fuel (by omega)
  | @jump pc acc _ ins test got dec rest ih =>
    intro fuel enough
    obtain ⟨fuel, rfl⟩ := spare got fuel enough
    simp only [evalFrom, got, dec]
    have forward := ins.lt_next pc (test.holds acc ins.k)
    exact ih fuel (by omega)

/-- **What the relation derives, the evaluator computes.** -/
theorem eval_of_returns (returns : Returns program input 0 0 result) :
    eval program input = some result :=
  evalFrom_of_returns returns program.length (by omega)

/-! ## Listings

A program is read by what stands at each position.  The rules below run it from such a listing,
without looking at displacements again. -/

section

variable (program : List Instruction)

def LoadsAt (pc : Nat) (k : Word) : Prop :=
  ∃ ins, program[pc]? = some ins ∧ decode ins.code = some .load ∧ ins.k = k

def JumpsAt (pc : Nat) (test : Test) (k : Word) (onTrue onFalse : Nat) : Prop :=
  ∃ ins, program[pc]? = some ins ∧ decode ins.code = some (.jump test) ∧ ins.k = k ∧
    ins.next pc true = onTrue ∧ ins.next pc false = onFalse

def ReturnsAt (pc : Nat) (k : Word) : Prop :=
  ∃ ins, program[pc]? = some ins ∧ decode ins.code = some .ret ∧ ins.k = k

end

theorem ReturnsAt.returns (stands : ReturnsAt program pc k) (acc : Word) :
    Returns program input pc acc k := by
  obtain ⟨ins, got, dec, rfl⟩ := stands
  exact .ret got dec

theorem LoadsAt.returns {v : Word} (stands : LoadsAt program pc k)
    (loaded : input k = some v) (rest : Returns program input (pc + 1) v result) :
    Returns program input pc acc result := by
  obtain ⟨ins, got, dec, rfl⟩ := stands
  exact .load got dec loaded rest

variable {test : Test}

theorem JumpsAt.returns (stands : JumpsAt program pc test k onTrue onFalse)
    (taken : test.holds acc k = true → Returns program input onTrue acc result)
    (passed : test.holds acc k = false → Returns program input onFalse acc result) :
    Returns program input pc acc result := by
  obtain ⟨ins, got, dec, rfl, rfl, rfl⟩ := stands
  apply Returns.jump got dec
  cases holds : test.holds acc ins.k with
  | true => exact taken holds
  | false => exact passed holds

/-! ## Well-formed programs -/

/-- The positions control can pass to from an instruction, whatever the accumulator holds. -/
def successors (pc : Nat) (ins : Instruction) : List Nat :=
  match decode ins.code with
  | some .load => [pc + 1]
  | some (.jump _) => [ins.next pc true, ins.next pc false]
  | some .ret => []
  | none => []

/-- Control can pass from one position to the other. -/
def Leads (program : List Instruction) (pc pc' : Nat) : Prop :=
  ∃ ins, program[pc]? = some ins ∧ pc' ∈ successors pc ins

/-- No path leaves the program, and it has no instruction the machine does not know. -/
structure WellFormed (program : List Instruction) : Prop where
  nonempty : 0 < program.length
  known : ∀ {pc : Nat} {ins : Instruction}, program[pc]? = some ins → decode ins.code ≠ none
  inside : ∀ {pc pc' : Nat}, Leads program pc pc' → pc' < program.length

theorem lt_of_leads (leads : Leads program pc pc') : pc < pc' := by
  obtain ⟨ins, -, passes⟩ := leads
  unfold successors at passes
  split at passes
  case h_1 => simp only [List.mem_singleton] at passes; omega
  case h_2 =>
    simp only [List.mem_cons, List.not_mem_nil, or_false] at passes
    rcases passes with rfl | rfl
    · exact ins.lt_next pc true
    · exact ins.lt_next pc false
  case h_3 => cases passes
  case h_4 => cases passes

/-- Every position a path comes to is inside the program. -/
theorem WellFormed.lt_of_path (wellFormed : WellFormed program)
    (path : Relation.ReflTransGen (Leads program) 0 pc) : pc < program.length := by
  cases path with
  | refl => exact wellFormed.nonempty
  | tail _ last => exact wellFormed.inside last

/-- **A path that cannot go on has come to a return.** -/
theorem WellFormed.returns_of_stuck (wellFormed : WellFormed program)
    (path : Relation.ReflTransGen (Leads program) 0 pc) (stuck : ∀ pc', ¬ Leads program pc pc') :
    ∃ k, ReturnsAt program pc k := by
  have inside := wellFormed.lt_of_path path
  have got : program[pc]? = some program[pc] := List.getElem?_eq_getElem inside
  have no (pc' : Nat) : pc' ∉ successors pc program[pc] := fun passes =>
    stuck pc' ⟨_, got, passes⟩
  unfold successors at no
  cases dec : decode program[pc].code with
  | none => exact absurd dec (wellFormed.known got)
  | some op =>
    rw [dec] at no
    cases op with
    | load => exact absurd (List.mem_singleton.mpr rfl) (no (pc + 1))
    | jump test => exact absurd (.head _) (no _)
    | ret => exact ⟨_, _, got, dec, rfl⟩

/-- A listed position is known, and its successors are the listed ones. -/
theorem ReturnsAt.not_leads (stands : ReturnsAt program pc k) : ¬ Leads program pc pc' := by
  obtain ⟨ins, got, dec, -⟩ := stands
  rintro ⟨other, got', passes⟩
  obtain rfl : ins = other := Option.mem_unique got got'
  simp [successors, dec] at passes

theorem LoadsAt.leads (stands : LoadsAt program pc k) (leads : Leads program pc pc') :
    pc' = pc + 1 := by
  obtain ⟨ins, got, dec, -⟩ := stands
  obtain ⟨other, got', passes⟩ := leads
  obtain rfl : ins = other := Option.mem_unique got got'
  simpa [successors, dec] using passes

theorem JumpsAt.leads (stands : JumpsAt program pc test k onTrue onFalse)
    (leads : Leads program pc pc') : pc' = onTrue ∨ pc' = onFalse := by
  obtain ⟨ins, got, dec, -, rfl, rfl⟩ := stands
  obtain ⟨other, got', passes⟩ := leads
  obtain rfl : ins = other := Option.mem_unique got got'
  simpa [successors, dec] using passes

end Foundations.ClassicBpf
