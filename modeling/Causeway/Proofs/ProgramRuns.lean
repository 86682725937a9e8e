import Causeway.Proofs.ScriptConservation
/-!
# Runs of programs

Two invariants of what programs do. A heap stays in order whatever happens: raw units, stale
handles, faults and user code at any depth included. The counts of a plain program are exact between
its operations until one of them faults, and the first fault is no double release.

Neither says that an operation finishes.
-/
set_option autoImplicit false

namespace Causeway

def Outcome.EndsIn {U α : Type} : Outcome U α → World U → Prop
  | .done _ w, w' | .fault _ w, w' => w = w'
  | .unfinished, _ => False

theorem Outcome.Conserved.heapSteps {U α : Type} {O : Ownership U} {d : Discipline}
    {H : Multiset Handle} {K : α → Multiset Handle} {w w' : World U} {out : Outcome U α}
    (hout : out.Conserved O d H w K) (hend : out.EndsIn w') :
    Relation.ReflTransGen Heap.Step w.heap w'.heap := by
  cases out with
  | done a w₁ =>
    cases hend
    exact hout.1.heapSteps
  | fault c w₁ =>
    cases hend
    exact hout.1.heapSteps
  | unfinished => cases hend

namespace Machine

open Act

def envOf (n : Nat) : Env Client := Env.tie Client.observe userCode n

theorem envOf_lawful (n : Nat) : (envOf n).Lawful clientOwnership := tie_userCode_lawful n

namespace Program

def start (tracing : Bool) (settings : Settings) : World Client :=
  { heap := .empty, pending := none, settings, client := .start tracing }

variable {env : Env Client} {w w' : World Client}

/-- What every round of the emptying keeps, the emptying keeps. A round takes the first register out
and gives it up; a fault is noted, and the next round goes on from where it left the world. -/
theorem emptyRegisters_induct (env : Env Client) (w : World Client)
    {P : List Fault → World Client → Prop}
    (round : ∀ faults w name x rest, w.client.registers = (name, x) :: rest → P faults w →
      match (emptyRegister name >>= fun _ => x.drop) env w with
      | .done _ w' => P faults w'
      | .fault c w' => P (faults ++ [c]) w'
      | .unfinished => True)
    (first : P [] w) :
    match emptyRegisters env w with
    | .done faults w' => P faults w' ∧ w'.client.registers = []
    | .fault _ _ => False
    | .unfinished => True := by
  refine loopFor_rule (P := P) (Q := fun out => match out with
    | .done faults w' => P faults w' ∧ w'.client.registers = []
    | .fault _ _ => False
    | .unfinished => True) trivial (fun faults w h => ?_) env.budget [] w first
  rw [bind_run]
  simp only [Act.client]
  cases hregisters : w.client.registers with
  | nil => exact ⟨h, hregisters⟩
  | cons r rest =>
    obtain ⟨name, x⟩ := r
    have hround := round faults w name x rest hregisters h
    simp only [bind_run, emptyRegister, Act.modifyClient, Act.caught] at hround ⊢
    cases hr : x.drop env { w with client := { w.client with
        registers := w.client.registers.erase name } } with
    | done _ w' =>
      rw [hr] at hround
      exact hround
    | fault c w' =>
      rw [hr] at hround
      exact hround
    | unfinished => trivial

theorem emptying_conserved {name : String} {x : Holding} {d : Discipline}
    (henv : env.Lawful clientOwnership)
    (found : w.client.registers.lookup name = some x) (hw : Ready clientOwnership d 0 w) :
    ((emptyRegister name >>= fun _ => x.drop) env w).Conserved clientOwnership d 0 w fun _ => 0 :=
  empty_conserved found hw fun _ fresh ready => drop_conserved henv ready fresh

theorem emptyRegisters_heapSteps (henv : env.Lawful clientOwnership) {faults : List Fault}
    (hrun : emptyRegisters env w = .done faults w') :
    Relation.ReflTransGen Heap.Step w.heap w'.heap := by
  have h := emptyRegisters_induct env w
    (P := fun _ w' => Relation.ReflTransGen Heap.Step w.heap w'.heap) ?_ .refl
  · rw [hrun] at h
    exact h.1
  · intro faults w₁ name x rest hregisters hsteps
    have found : w₁.client.registers.lookup name = some x := by simp [hregisters]
    have hout := emptying_conserved henv found .lax
    cases hr : (emptyRegister name >>= fun _ => x.drop) env w₁ with
    | done _ w₂ =>
      rw [hr] at hout
      exact hsteps.trans (hout.heapSteps rfl)
    | fault _ w₂ =>
      rw [hr] at hout
      exact hsteps.trans (hout.heapSteps rfl)
    | unfinished => trivial

/-- As long as there is no fault the counts are exact, so the first one is no double release. -/
theorem emptyRegisters_exact (henv : env.Lawful clientOwnership)
    (hx : Exact clientOwnership 0 w) {faults : List Fault}
    (hrun : emptyRegisters env w = .done faults w') :
    w'.client.registers = [] ∧ (∀ h, faults.head? ≠ some (.doubleRelease h)) ∧
      (faults = [] → Exact clientOwnership 0 w' ∧ w'.client.inUse = w.client.inUse) := by
  have h := emptyRegisters_induct env w
    (P := fun faults w' => (∀ h, faults.head? ≠ some (.doubleRelease h)) ∧
      (faults = [] → Exact clientOwnership 0 w' ∧ w'.client.inUse = w.client.inUse)) ?_
    ⟨by simp, fun _ => ⟨hx, rfl⟩⟩
  · rw [hrun] at h
    exact ⟨h.2, h.1⟩
  · intro faults w₁ name x rest hregisters hfaults
    have found : w₁.client.registers.lookup name = some x := by simp [hregisters]
    obtain ⟨hhead, hexact⟩ := hfaults
    cases faults with
    | cons c faults =>
      cases (emptyRegister name >>= fun _ => x.drop) env w₁ with
      | done _ w₂ => exact ⟨hhead, by simp⟩
      | fault c' w₂ => exact ⟨by simpa using hhead, by simp⟩
      | unfinished => trivial
    | nil =>
      obtain ⟨hx₁, hscope⟩ := hexact rfl
      have hout := emptying_conserved henv found (hx₁.ready (d := .strict))
      cases hr : (emptyRegister name >>= fun _ => x.drop) env w₁ with
      | done _ w₂ =>
        rw [hr] at hout
        exact ⟨hhead, fun _ => ⟨hout.1.exact hx₁, hout.2.trans hscope⟩⟩
      | fault c w₂ =>
        rw [hr] at hout
        exact ⟨fun h => by simpa using hout.2 rfl h, by simp⟩
      | unfinished => trivial

/-- What each operation of a program leads on, the program does, up to the first fault. -/
theorem steps_induct {P : World Client → Prop} {ops : List Op} {entries : List Entry}
    (hop : ∀ op ∈ ops, ∀ w w', P w → (runOp [] op env w).EndsIn w' → P w') (hw : P w)
    (run : steps env ops w = some (entries, w')) : P w' := by
  induction ops generalizing w entries with
  | nil =>
    cases run
    exact hw
  | cons op ops ih =>
    rw [Program.steps] at run
    have hfirst := hop op List.mem_cons_self w
    cases hr : runOp [] op env w with
    | done entry w₁ =>
      rw [hr] at run
      obtain ⟨rest, hrest, heq⟩ := Option.map_eq_some_iff.1 run
      cases heq
      exact ih (fun op hmem => hop op (List.mem_cons_of_mem _ hmem)) (hfirst w₁ hw (hr ▸ rfl)) hrest
    | fault c w₁ =>
      rw [hr] at run
      cases run
      exact hfirst w' hw (hr ▸ rfl)
    | unfinished =>
      rw [hr] at run
      cases run

/-- Worlds that come up while programs run: between operations, after a fault, inside user code of
any depth, and between any two heap operations of it. -/
inductive Visited : World Client → Prop where
  | start (tracing : Bool) (settings : Settings) : Visited (start tracing settings)
  | heap {w : World Client} {heap : Heap} (h : Visited w) (s : Heap.Step w.heap heap) :
      Visited { w with heap }
  | op {w w' : World Client} (h : Visited w) (n : Nat) (arguments : List Handle) (op : Op)
      (run : (runOp arguments op (envOf n) w).EndsIn w') : Visited w'
  | call {w w' : World Client} (h : Visited w) (n : Nat) (code : CodeId) (arguments : List Handle)
      (run : ((envOf n).hooks.call code arguments w).EndsIn w') : Visited w'
  | slot {w w' : World Client} (h : Visited w) (n : Nat) (code : CodeId) (obj : Handle)
      (run : ((envOf n).hooks.slot code obj w).EndsIn w') : Visited w'
  | measure {w w' : World Client} (h : Visited w) (n : Nat) (code : CodeId) (obj : Handle)
      (run : ((envOf n).hooks.measure code obj w).EndsIn w') : Visited w'
  | destroy {w w' : World Client} (h : Visited w) (n : Nat) (code : CodeId) (units : List Handle)
      (run : ((envOf n).hooks.destroy code units w).EndsIn w') : Visited w'
  | toPeer {w w' : World Client} (h : Visited w) (n : Nat) (code : CodeId) (t : NativeType)
      (v : t.Value) (run : ((envOf n).hooks.toPeer code t v w).EndsIn w') : Visited w'
  | release {w w' : World Client} (h : Visited w) (n : Nat) (obj : Handle)
      (run : ((envOf n).release obj w).EndsIn w') : Visited w'
  | emptied {w w' : World Client} (h : Visited w) (n : Nat) (faults : List Fault)
      (run : emptyRegisters (envOf n) w = .done faults w') : Visited w'

theorem Visited.reached (h : Visited w) : w.heap.Reached := by
  induction h with
  | start => exact .refl
  | heap _ s ih => exact ih.tail s
  | op _ n arguments op run ih =>
    have hop : Conserves clientOwnership .lax 0 (runOp arguments op) fun _ => 0 :=
      runOp_conserves (by simp)
    exact ih.trans ((hop _ (envOf_lawful n) _ .lax).heapSteps run)
  | call _ n code arguments run ih =>
    exact ih.trans (((envOf_lawful n).hooks.call .lax code arguments _ .lax).heapSteps run)
  | slot _ n code obj run ih =>
    exact ih.trans (((envOf_lawful n).hooks.slot .lax code obj _ .lax).heapSteps run)
  | measure _ n code obj run ih =>
    exact ih.trans (((envOf_lawful n).hooks.measure .lax code obj _ .lax).heapSteps run)
  | destroy _ n code units run ih =>
    exact ih.trans (((envOf_lawful n).hooks.destroy .lax code units _ .lax).heapSteps run)
  | toPeer _ n code t v run ih =>
    exact ih.trans (((envOf_lawful n).hooks.toPeer .lax code t v _ .lax).heapSteps run)
  | release _ n obj run ih =>
    exact ih.trans (((envOf_lawful n).release .lax obj _ .lax).heapSteps run)
  | emptied _ n faults run ih =>
    exact ih.trans (emptyRegisters_heapSteps (envOf_lawful n) run)

theorem Visited.steps {n : Nat} {ops : List Op} {entries : List Entry} (h : Visited w)
    (run : Program.steps (envOf n) ops w = some (entries, w')) : Visited w' :=
  steps_induct (fun op _ _ _ hw hend => hw.op n [] op hend) h run

/-- The accounts, the counts and the free list agree in every world that comes up. -/
theorem Visited.keeps_ledger (h : Visited w) : w.heap.Ledger := h.reached.inOrder.ledger

/-- A unit is given back twice by hand, and the second time faults. -/
theorem ledger_after_double_release : ∃ e₁ e₂ w₁ w₂ w₃,
    runOp [] (.op (.new .null) (some "a") none false) (envOf 3) (start false {}) = .done e₁ w₁ ∧
    runOp [] (.op (.release "a") none none false) (envOf 3) w₁ = .done e₂ w₂ ∧
    runOp [] (.op (.release "a") none none false) (envOf 3) w₂ = .fault (.doubleRelease ⟨0, 0⟩) w₃ ∧
    w₃.heap.Ledger := by
  refine ⟨_, _, _, _, _, rfl, rfl, rfl, Visited.keeps_ledger ?_⟩
  exact .op (.op (.op (.start false {}) 3 [] (.op (.new .null) (some "a") none false) rfl)
    3 [] (.op (.release "a") none none false) rfl) 3 [] (.op (.release "a") none none false) rfl

/-- Worlds between the operations of a plain program that has not faulted, up to the world in which
its registers are empty. -/
inductive Between (env : Env Client) : World Client → Prop where
  | start (tracing : Bool) (settings : Settings) : Between env (start tracing settings)
  | op {w w' : World Client} {op : Op} {entry : Entry} (h : Between env w) (plain : op.Plain)
      (run : runOp [] op env w = .done entry w') : Between env w'
  | emptied {w w' : World Client} (h : Between env w)
      (run : emptyRegisters env w = .done [] w') : Between env w'

/-- Operations lead from one such world to another, or to the first fault. -/
theorem Between.steps {ops : List Op} {entries : List Entry} (h : Between env w)
    (plain : ∀ op ∈ ops, op.Plain) (run : Program.steps env ops w = some (entries, w')) :
    Between env w' ∨ ∃ w₁ op c, Between env w₁ ∧ op ∈ ops ∧ runOp [] op env w₁ = .fault c w' := by
  induction ops generalizing w entries with
  | nil =>
    cases run
    exact .inl h
  | cons op ops ih =>
    rw [Program.steps] at run
    cases hr : runOp [] op env w with
    | done entry w₁ =>
      rw [hr] at run
      obtain ⟨rest, hrest, heq⟩ := Option.map_eq_some_iff.1 run
      cases heq
      obtain hw' | ⟨w₂, op', c, h₂, hop, hfault⟩ :=
        ih (h.op (plain op List.mem_cons_self) hr)
          (fun o ho => plain o (List.mem_cons_of_mem _ ho)) hrest
      · exact .inl hw'
      · exact .inr ⟨w₂, op', c, h₂, List.mem_cons_of_mem _ hop, hfault⟩
    | fault c w₁ =>
      rw [hr] at run
      cases run
      exact .inr ⟨w, op, c, h, List.mem_cons_self, hr⟩
    | unfinished =>
      rw [hr] at run
      cases run

theorem start_exact (tracing : Bool) (settings : Settings) :
    Exact clientOwnership 0 (start tracing settings) where
  inOrder := Heap.empty_inOrder
  counted := fun _ => rfl
  sound :=
    { ordered := List.Pairwise.nil
      distinct := Multiset.nodup_zero
      numbered := fun _ h => absurd h (Multiset.notMem_zero _)
      inUse := fun _ h => absurd h List.not_mem_nil
      plain := fun _ h => absurd h (Array.not_mem_empty _) }

theorem runOp_conserved {op : Op} (plain : op.Plain) (henv : env.Lawful clientOwnership)
    (hx : Exact clientOwnership 0 w) :
    (runOp [] op env w).Conserved clientOwnership .strict 0 w fun _ => 0 :=
  runOp_conserves (fun _ => plain) env henv w hx.ready

theorem Between.exact {n : Nat} (h : Between (envOf n) w) :
    Exact clientOwnership 0 w ∧ w.client.inUse = [] := by
  induction h with
  | start tracing settings => exact ⟨start_exact tracing settings, rfl⟩
  | op _ plain run ih =>
    obtain ⟨hx, hscope⟩ := ih
    have hout := runOp_conserved plain (envOf_lawful n) hx
    rw [run] at hout
    exact ⟨hout.1.exact hx, hout.2.trans hscope⟩
  | emptied _ run ih =>
    obtain ⟨hx, hscope⟩ := ih
    obtain ⟨_, _, hexact⟩ := emptyRegisters_exact (envOf_lawful n) hx run
    exact ⟨(hexact rfl).1, (hexact rfl).2.trans hscope⟩

/-- With nothing in use nobody but the registers owns units outside the heap. -/
theorem Between.units {n : Nat} (h : Between (envOf n) w) :
    clientOwnership.units w.client = ↑w.client.registers.units := by
  obtain ⟨hx, hscope⟩ := h.exact
  have horphans : w.client.orphans = [] := by
    refine List.eq_nil_iff_forall_not_mem.2 fun o ho => ?_
    have hmem := hx.sound.inUse o ho
    rw [hscope] at hmem
    cases hmem
  simp [clientOwnership, Client.orphanUnits, horphans]

/-- Every count is the number of the units of registers and live objects, all of which are on live
objects, and what faults next is no double release. -/
theorem Between.counts_exact {n : Nat} (h : Between (envOf n) w) :
    (∀ k, w.heap.refcount k = w.client.registers.units.count k + w.heap.units.count k) ∧
    (∀ k, k ∈ w.client.registers.units ∨ k ∈ w.heap.units → w.heap.isAlive k = true) ∧
    (∀ op c w', op.Plain → runOp [] op (envOf n) w = .fault c w' → ∀ k, c ≠ .doubleRelease k) ∧
    (∀ faults w', emptyRegisters (envOf n) w = .done faults w' →
      ∀ k, faults.head? ≠ some (.doubleRelease k)) := by
  obtain ⟨hx, _⟩ := h.exact
  refine ⟨fun k => ?_, fun k hk => ?_, fun op c w' plain run => ?_, fun faults w' run => ?_⟩
  · rw [hx.counted, h.units, zero_add, Multiset.count_add, Multiset.coe_count]
  · refine hx.isAlive ?_
    rw [h.units, zero_add, Multiset.mem_add, Multiset.mem_coe]
    exact hk
  · have hout := runOp_conserved plain (envOf_lawful n) hx
    rw [run] at hout
    exact hout.2 rfl
  · exact (emptyRegisters_exact (envOf_lawful n) hx run).2.1

/-- Two units that a list owns and one that a register does. -/
theorem counts_exact_list : ∃ e w,
    runOp [] (.op (.new (.list [.null, .null])) (some "a") none false) (envOf 3) (start false {}) =
      .done e w ∧
    w.client.registers.units = [⟨2, 0⟩] ∧
    ∀ k, w.heap.refcount k = w.client.registers.units.count k + w.heap.units.count k := by
  have plain : Op.Plain (.op (.new (.list [.null, .null])) (some "a") none false) :=
    .scriptless rfl rfl
  refine ⟨_, _, rfl, rfl, ?_⟩
  have hbetween : Between (envOf 3) _ := .op (.start false {}) plain rfl
  exact hbetween.counts_exact.1

end Program

end Machine

end Causeway
