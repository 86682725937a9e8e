import Causeway.Proofs.Linearity
import Causeway.Proofs.ProgramRuns
import Causeway.Proofs.ScriptComposition
/-!
# Native states are linear

A custody goes along with a program up to the first fault, and is sound at every moment of it:
between any two operations of the heap, inside user code of any depth. Read off from that, the state
of a native object is never lost, never in two places and never handed over twice; and wherever no
call is at work on a state, every live native object has its own.

That user code is entered at such moments only is said by a second environment, in which it does not
come back from anywhere else: every run without a fault is a run under it too.

The client's log is the evidence that a state handed over was disposed of. Every dealloc slot ends
in telling the client so, and where none is at work the client was told as often as states were
handed over.
-/
set_option autoImplicit false

namespace Causeway.Machine

open Act

def custodian : Custodian Client where
  told := fun c => c.log.toList.countP Log.Event.isDrop
  deals := fun c id => ∃ name ops runs, c.codes[id]? = some (.dealloc name ops, runs)

theorem observe_told (e : Log.Event) (c : Client) :
    custodian.told (Client.observe e c) = custodian.told c + if e.isDrop then 1 else 0 := by
  change (Client.observe e c).log.toList.countP _ = c.log.toList.countP _ + _
  rw [observe_log, Array.toList_push, List.countP_append, List.countP_singleton]

theorem observe_deals (e : Log.Event) (c : Client) (id : CodeId) (h : custodian.deals c id) :
    custodian.deals (Client.observe e c) id := by
  change ∃ name ops runs, (Client.observe e c).codes[id]? = _
  rw [observe_codes]
  exact h

variable {x : Custody × World Client} {env env' : Env Client} {g g' : Custody}
  {w w' : World Client} {t : Nat} {rest : List Nat}

theorem enterCode_linear (id : CodeId) : (enterCode id).Linear custodian := by
  refine .of_aside fun _ env env' _ w => ?_
  unfold enterCode
  rw [bind_run, bind_run]
  simp only [Act.client]
  cases hid : w.client.codes[id]? with
  | none => exact ⟨rfl, rfl, rfl, fun _ h => h⟩
  | some found =>
    obtain ⟨code, runs⟩ := found
    refine ⟨rfl, rfl, rfl, fun k hk => ?_⟩
    obtain ⟨name, ops, n, hk⟩ := hk
    change ∃ name ops n, (w.client.codes.setIfInBounds id (code, runs + 1))[k]? =
      some (.dealloc name ops, n)
    by_cases hkid : id = k
    · subst hkid
      rw [hid] at hk
      cases hk
      have hlt : id < w.client.codes.size := (Array.getElem?_eq_some_iff.1 hid).1
      exact ⟨name, ops, runs + 1, Array.getElem?_setIfInBounds_self_of_lt hlt⟩
    · rw [Array.getElem?_setIfInBounds_ne hkid]
      exact ⟨name, ops, n, hk⟩

theorem Own.linear (α : Type) (act : Run α) (h : Own α act) : act.Linear custodian := by
  cases h with
  | modify f log codes =>
    refine .of_aside fun _ env env' _ w => ⟨rfl, rfl, ?_, fun id hid => ?_⟩
    · change (f w.client).log.toList.countP _ = w.client.log.toList.countP _
      rw [log]
    · obtain ⟨name, ops, runs, hid⟩ := hid
      exact ⟨name, ops, runs, codes w.client id _ hid⟩
  | enter id => exact enterCode_linear id
  | configure s => exact .of_aside fun _ _ _ _ _ => ⟨rfl, rfl, rfl, fun _ h => h⟩
  | enlist name ops describe dealloc s =>
    intro x env env' henv g w hg
    -- the dealloc slot is code before there is an object that has it
    let w₁ : World Client :=
      { w with client := { w.client with codes := w.client.codes.push (.dealloc name ops, 0) } }
    have hr : ∀ env : Env Client, (do
        let code ← install (.dealloc name ops)
        instantiate (describe code) s : Run Handle) env w =
        instantiate (describe w.client.codes.size) s env w₁ := fun _ => rfl
    have hdeals : ∀ id, custodian.deals w.client id → custodian.deals w₁.client id := by
      intro id hid
      obtain ⟨name', ops', runs, hid⟩ := hid
      exact ⟨name', ops', runs, push_codes hid (.dealloc name ops, 0)⟩
    rw [hr, hr]
    have haside : Custody.Step custodian (g, w) (g, w₁) := .aside rfl rfl hdeals
    have known : (describe w.client.codes.size).Known custodian w₁.client := by
      intro code hcode
      rw [dealloc] at hcode
      cases hcode
      exact ⟨name, ops, 0, Array.getElem?_push_size⟩
    exact .step hg haside hg.calls fun hg₁ => instantiate_linear henv hg₁ known s

/-- A dealloc slot ends in telling the client that the state is gone. -/
theorem enterDealloc_leads (henv : env.Linear custodian x env') (hg : g.Since custodian x w)
    {id : CodeId} (deals : custodian.deals w.client id) (latest : g.disposing = t :: rest)
    (units : List Handle) :
    (enterDealloc id units env w).Leads custodian g w g.lent rest (enterDealloc id units env' w) := by
  obtain ⟨name, ops, runs, hid⟩ := deals
  have hr : ∀ env : Env Client,
      enterDealloc id units env w = runDealloc name ops units env w := fun env => by
    simp [enterDealloc, codeAt, bind_run, Act.client, hid, pure_run]
  have hnote := (note_composed (.destroyed name units.length)).linear Own.linear
  have hops := (runOps_composed [] ops).linear Own.linear
  rw [hr, hr]
  refine .bind hg (hnote henv hg) fun _ g₁ w₁ hg₁ hlent₁ hdisposing₁ _ => ?_
  rw [← hlent₁]
  refine .next henv hg₁ (holding_leads (.bind hg₁ (hops henv hg₁)
    fun _ g₂ w₂ hg₂ hlent₂ hdisposing₂ _ => ?_)) fun _ => .bind (releaseAll_linear units) fun _ =>
      .pure _
  rw [← hlent₂]
  exact dropped_leads henv (hdisposing₂.trans (hdisposing₁.trans latest)) _

theorem userCode_linear (henv : env.Linear custodian x env') :
    (userCode env).Linear custodian x (userCode env') where
  call id arguments _ _ hg := (enterCall_composed id arguments).linear Own.linear henv hg
  slot id obj _ _ hg := (enterSlot_composed id obj).linear Own.linear henv hg
  measure id obj _ _ hg := (enterHint_composed id obj).linear Own.linear henv hg
  destroy _ units _ _ _ _ hg deals latest := enterDealloc_leads henv hg deals latest units
  toPeer id t v _ _ hg := (enterConverter_composed id t v).linear Own.linear henv hg

namespace Program

/-- The environment of programs whose user code may be entered only where `P` holds. -/
noncomputable def envAt (P : World Client → Prop) (n : Nat) : Env Client :=
  Env.tie Client.observe (fun env => (userCode env).onlyAt P) n

theorem envOf_linear {P : World Client → Prop}
    (hP : ∀ (g : Custody) w, g.Since custodian x w → P w) (n : Nat) :
    (envOf n).Linear custodian x (envAt P n) :=
  tie_linear observe_told observe_deals (fun _ _ henv => (userCode_linear henv).onlyAt hP) n

def emptyFirst : Run (Unit ⊕ Unit) := do
  match (← Act.client).registers with
  | [] => pure (.inr ())
  | (name, x) :: _ =>
    emptyRegister name
    x.drop
    pure (.inl ())

def emptyAll : Run Unit := Act.loop (fun _ => emptyFirst) ()

theorem emptyAll_composed : Composed Own emptyAll := by
  refine .loop (fun _ => .bind (.reads .client) fun c => ?_) ()
  split
  · exact .pure _
  · exact .bind (emptyRegister_composed _) fun _ => .bind (drop_composed _) fun _ => .pure _

def emptyNext (faults : List Fault) : Run (List Fault ⊕ List Fault) := fun env w =>
  match emptyFirst env w with
  | .done (.inl ()) w' => .done (.inl faults) w'
  | .done (.inr ()) w' => .done (.inr faults) w'
  | .fault c w' => .done (.inl (faults ++ [c])) w'
  | .unfinished => .unfinished

theorem emptyRegisters_eq_loop : emptyRegisters = Act.loop emptyNext [] := by
  unfold emptyRegisters
  congr 1
  funext faults env w
  unfold emptyNext emptyFirst
  simp only [bind_run, Act.client]
  cases w.client.registers with
  | nil => rfl
  | cons r rest =>
    obtain ⟨name, x⟩ := r
    simp only [bind_run, emptyRegister, Act.modifyClient, Act.caught]
    cases x.drop env _ <;> rfl

theorem emptyRegisters_eq_done_nil :
    emptyRegisters env w = .done [] w' ↔ emptyAll env w = .done () w' := by
  have hrounds : ∀ n faults w, Act.loopFor emptyNext n faults env w = .done [] w' ↔
      faults = [] ∧ Act.loopFor (fun _ => emptyFirst) n () env w = .done () w' := by
    intro n
    induction n with
    | zero => simp [Act.loopFor]
    | succ n ih =>
      intro faults w
      simp only [Act.loopFor, emptyNext]
      cases emptyFirst env w with
      | done r w₁ =>
        cases r with
        | inl => exact ih faults w₁
        | inr => simp
      | fault c w₁ => simp [ih]
      | unfinished => simp
  rw [emptyRegisters_eq_loop]
  exact (hrounds env.budget [] w).trans (by simp [emptyAll, Act.loop])

/-- Worlds that operations lead to, none of which faults. -/
inductive Runs (env : Env Client) : World Client → World Client → Prop where
  | refl (w : World Client) : Runs env w w
  | op {w w₁ w₂ : World Client} {entry : Entry} (h : Runs env w w₁) (arguments : List Handle)
      (op : Op) (run : runOp arguments op env w₁ = .done entry w₂) : Runs env w w₂
  | emptied {w w₁ w₂ : World Client} (h : Runs env w w₁)
      (run : emptyRegisters env w₁ = .done [] w₂) : Runs env w w₂

section

variable {P : World Client → Prop} {n : Nat}

/-- A custody that has gone along so far goes along with the next act, and user code is entered
where it goes along. -/
theorem path_of_done {g₁ : Custody} {w₁ : World Client} {α : Type} {act : Run α} {a : α}
    (hact : Composed Own act) (hg : g.Sound custodian w)
    (hP : ∀ (g₁ : Custody) w₁, g₁.Since custodian (g, w) w₁ → P w₁)
    (m : Custody.Path custodian (g, w) (g₁, w₁)) (hlent : g₁.lent = g.lent)
    (run : act (envOf n) w₁ = .done a w') :
    act (envAt P n) w₁ = .done a w' ∧ ∃ g', Custody.Path custodian (g, w) (g', w') ∧
      g'.lent = g.lent ∧ g'.disposing = g₁.disposing := by
  have hsince := (Custody.Since.refl hg).along m (hlent ▸ List.suffix_rfl)
  have hout := hact.linear Own.linear (envOf_linear hP n) hsince
  rw [run] at hout
  obtain ⟨hsame, g', m', hlent', hdisposing⟩ := hout
  exact ⟨hsame, g', m.trans m', hlent'.trans hlent, hdisposing⟩

theorem Runs.path (h : Runs (envOf n) w w') (hg : g.Sound custodian w)
    (hP : ∀ (g₁ : Custody) w₁, g₁.Since custodian (g, w) w₁ → P w₁) :
    Runs (envAt P n) w w' ∧ ∃ g', Custody.Path custodian (g, w) (g', w') ∧ g'.lent = g.lent ∧
      g'.disposing = g.disposing := by
  induction h with
  | refl => exact ⟨.refl w, g, .refl, rfl, rfl⟩
  | op _ arguments op run ih =>
    obtain ⟨hrun, g₁, m, hlent, hdisposing⟩ := ih
    obtain ⟨hsame, g₂, m₂, hlent₂, hdisposing₂⟩ :=
      path_of_done (runOp_composed arguments op) hg hP m hlent run
    exact ⟨hrun.op arguments op hsame, g₂, m₂, hlent₂, hdisposing₂.trans hdisposing⟩
  | emptied _ run ih =>
    obtain ⟨hrun, g₁, m, hlent, hdisposing⟩ := ih
    obtain ⟨hsame, g₂, m₂, hlent₂, hdisposing₂⟩ :=
      path_of_done emptyAll_composed hg hP m hlent (emptyRegisters_eq_done_nil.1 run)
    exact ⟨hrun.emptied (emptyRegisters_eq_done_nil.2 hsame), g₂, m₂, hlent₂,
      hdisposing₂.trans hdisposing⟩

end

/-- Every state there has been is accounted for. -/
structure Accounted (g : Custody) (w : World Client) : Prop where
  place : ∀ t < g.made, ∃! p, g.At w.heap t p
  objects : ∀ h, (∃ t, g.objects h = some t) ↔ ∃ d s, w.heap.payload? h = some (.native d s)
  /-- A call has the state of the object it is a call on, unless that is dead. -/
  borrowed : ∀ h k t, (h, t) ∈ g.lent → g.objects k = some t → k = h
  once : g.handed.Nodup
  gone : ∀ t < g.made, (∀ h, g.objects h ≠ some t) → (∀ h, (h, t) ∉ g.lent) →
    g.handed.count t = 1
  told : w.client.log.toList.countP Log.Event.isDrop + g.disposing.length = g.handed.length
  idle : g.lent = [] → ∀ h d s, w.heap.payload? h = some (.native d s) → s.isSome = true
  /-- An object whose state is away is busy, and stays as it is. -/
  busy : ∀ h t, (h, t) ∈ g.lent → g.objects h = some t → ∃ d,
    w.heap.payload? h = some (.native d none) ∧
    ∀ (α : Type) (env : Env Client) (kind : StateKind) (units : α → List Handle)
      (f : kind.State → Run (kind.State × α)),
      w.pending = none ∨ w.settings.strictIndicator = false →
      ∃ w', withState h kind units f env w = .done none w' ∧ w'.heap = w.heap ∧
        w'.pending = some ⟨.runtimeError, s!"{d.name} already executing"⟩

theorem withState_busy {h : Handle} {d : Descriptor}
    (found : w.heap.payload? h = some (.native d none)) {α : Type} (env : Env Client)
    (kind : StateKind) (units : α → List Handle) (f : kind.State → Run (kind.State × α))
    (free : w.pending = none ∨ w.settings.strictIndicator = false) :
    ∃ w', withState h kind units f env w = .done none w' ∧ w'.heap = w.heap ∧
      w'.pending = some ⟨.runtimeError, s!"{d.name} already executing"⟩ := by
  obtain ⟨w', hraise, hpending, hheap⟩ :=
    raise_over_run .runtimeError s!"{d.name} already executing" env free
  refine ⟨w', ?_, hheap, hpending⟩
  unfold withState
  simp only [bind_run, Act.heap, found]
  rw [hraise]
  rfl

theorem accounted_of_sound (hg : g.Sound custodian w) : Accounted g w where
  place _ := hg.existsUnique_at
  objects h := by
    constructor
    · rintro ⟨t, ht⟩
      obtain ⟨b, hb⟩ := hg.exists_hasState ht
      cases b with
      | true =>
        obtain ⟨d, s, found⟩ := Heap.hasState?_eq_true.1 hb
        exact ⟨d, some s, found⟩
      | false =>
        obtain ⟨d, found⟩ := Heap.hasState?_eq_false.1 hb
        exact ⟨d, none, found⟩
    · rintro ⟨d, s, found⟩
      exact hg.exists_object (Heap.hasState?_of_payload? found)
  borrowed := hg.borrowed
  once := (List.nodup_append'.1 hg.once).2.1
  gone t ht hdead hcalls := by
    refine List.count_eq_one_of_mem (List.nodup_append'.1 hg.once).2.1 ?_
    obtain ⟨h, hh⟩ | haway := hg.kept t ht
    · exact absurd hh (hdead h)
    · obtain hlent | hhanded := List.mem_append.1 haway
      · obtain ⟨⟨h, _⟩, hmem, rfl⟩ := List.mem_map.1 hlent
        exact absurd hmem (hcalls h)
      · exact hhanded
  told := hg.told
  idle hlent h d s found := by
    cases s with
    | some s => rfl
    | none =>
      obtain ⟨t, _, hlookup⟩ := hg.waiting h (Heap.hasState?_of_payload? found)
      rw [hlent] at hlookup
      cases hlookup
  busy h t hlent own := by
    obtain ⟨b, hb⟩ := hg.exists_hasState own
    cases b with
    | true => exact absurd (Custody.mem_away_of_lent hlent) (hg.inPlace h t own hb)
    | false =>
      obtain ⟨d, found⟩ := Heap.hasState?_eq_false.1 hb
      exact ⟨d, found, fun α env kind units f free => withState_busy found env kind units f free⟩

/-- Steps of a custody have led here from the start of a program. -/
def Moment (g : Custody) (w : World Client) : Prop :=
  ∃ tracing settings, Custody.Path custodian (.start, start tracing settings) (g, w)

theorem Moment.sound (h : Moment g w) : g.Sound custodian w := by
  obtain ⟨tracing, settings, m⟩ := h
  exact m.sound (Custody.Sound.start_sound rfl rfl)

/-- What follows on a moment, with the calls at work then still at work. -/
def Within (g : Custody) (w w₁ : World Client) : Prop :=
  ∃ g₁, Custody.Path custodian (g, w) (g₁, w₁) ∧ g.lent <:+ g₁.lent ∧ Accounted g₁ w₁

/-- An object with a slot that lets go of it at work, and puts another in its place. -/
def fleeting : Op :=
  let body : List Op := [.op (.drop "a") none none false, .op (.new .null) (some "b") none false]
  .op (.nativeObject "Fleeting" none (some ⟨[⟨body, .unit⟩], true⟩) none [] []) (some "a") none false

end Program

end Causeway.Machine
