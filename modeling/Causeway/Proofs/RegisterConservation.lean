import Causeway.Proofs.ClientOwnership
import Causeway.Machine.Frame
/-!
# Conservation by registers and written values

What is taken out of a register is in hand until it is put somewhere else or given up, and what is
in use outlives its register. The scripts that are handed to the library have to be admitted;
nothing is said here about running them.
-/
set_option autoImplicit false

namespace Causeway.Machine

open Act

variable {α : Type} {d : Discipline} {H : Multiset Handle} {K : α → Multiset Handle}
  {w : World Client} {env : Env Client}

theorem modify_conserves {f : Client → Client} (hregisters : ∀ c, (f c).registers = c.registers)
    (horphans : ∀ c, (f c).orphans = c.orphans) (hinUse : ∀ c, (f c).inUse = c.inUse)
    (hsound : d = .strict → ∀ c : Client, c.Sound → (f c).Sound) :
    Conserves clientOwnership d 0 (Act.modifyClient f) fun _ => 0 := by
  refine .of_heap_eq fun _ _ w => ⟨(), _, rfl, rfl, ?_, hinUse _, fun hd => hsound hd _⟩
  simp only [clientOwnership, Client.orphanUnits, hregisters, horphans]

theorem note_conserves (entry : Entry) :
    Conserves clientOwnership d 0 (note entry) fun _ => 0 :=
  modify_conserves (fun _ => rfl) (fun _ => rfl) (fun _ => rfl)
    fun _ _ hc => ⟨hc.ordered, hc.distinct, hc.numbered, hc.inUse, hc.plain⟩

theorem setJournal_conserves (journal : Array Entry) :
    Conserves clientOwnership d 0 (Act.modifyClient fun c => { c with journal }) fun _ => 0 :=
  modify_conserves (fun _ => rfl) (fun _ => rfl) (fun _ => rfl)
    fun _ _ hc => ⟨hc.ordered, hc.distinct, hc.numbered, hc.inUse, hc.plain⟩

theorem journaled_conserves {act : Run α} (hact : Conserves clientOwnership d H act K) :
    Conserves clientOwnership d H (journaled act) fun r => K r.1 := by
  refine .ask .client fun outer => .aside (setJournal_conserves #[]) fun _ => ?_
  refine hact.next fun a => .ask .client fun inner => ?_
  exact .aside (setJournal_conserves outer.journal) fun _ => .pure rfl

theorem install_conserves (code : Code) (hcode : Admits d code.bodies) :
    Conserves clientOwnership d 0 (install code) fun _ => 0 := by
  refine .ask .client fun c => .aside ?_ fun _ => .pure rfl
  exact modify_conserves (fun _ => rfl) (fun _ => rfl) (fun _ => rfl)
    fun hd _ hc => hc.install (hcode hd)

theorem enterCode_conserves (id : CodeId) :
    Conserves clientOwnership d 0 (enterCode id) fun _ => 0 := by
  apply Conserves.ofClient
  intro env w henv hw
  cases hcode : w.client.codes[id]? with
  | none => exact .of_act (.pure rfl) henv hw
  | some entry =>
    obtain ⟨code, runs⟩ := entry
    exact .update { w.client with codes := w.client.codes.setIfInBounds id (code, runs + 1) }
      (fun _ => rfl) (fun _ hc => hc.count hcode (runs + 1)) rfl hw
      fun ready => .of_act (.pure rfl) henv ready

theorem codeAt_conserves {g : Option Code → Run α} (id : CodeId)
    (hg : ∀ o, (∀ code, o = some code → Admits d code.bodies) →
      Conserves clientOwnership d H (g o) K) :
    Conserves clientOwnership d H (codeAt id >>= g) K := by
  intro env henv w hw
  refine hg (w.client.codes[id]?.map (·.1)) (fun code hcode hd => ?_) env henv w hw
  obtain ⟨entry, hentry, rfl⟩ := Option.map_eq_some_iff.1 hcode
  exact (hw.sound hd).plain entry (Array.mem_of_getElem? hentry)

theorem runBlock_conserves (id : CodeId) (arguments : List Handle) :
    Conserves clientOwnership d 0 (runBlock id arguments) fun _ => 0 := by
  have hcall : Conserves clientOwnership d 0
      (fun env w => env.hooks.call id arguments w : Run (Option Handle)) fun o => ↑o.toList :=
    fun _ henv w hw => henv.hooks.call d id arguments w hw
  exact hcall.next fun out => releaseAll_conserves out.toList

theorem installHooks_conserves {hooks : List (String × Hook (List Op))}
    (hhooks : Admits d (Converter.custom hooks).bodies) :
    Conserves clientOwnership d 0 (installHooks hooks) fun _ => 0 := by
  induction hooks with
  | nil => exact .pure rfl
  | cons hook hooks ih =>
    obtain ⟨key, hook⟩ := hook
    have hbefore : Admits d (Code.block hook.before).bodies :=
      hhooks.of_subset (by simp [Code.bodies, Converter.bodies])
    have hafter : Admits d (Code.block hook.after).bodies :=
      hhooks.of_subset (by simp [Code.bodies, Converter.bodies])
    have hrest : Admits d (Converter.custom hooks).bodies :=
      hhooks.of_subset (by simp [Converter.bodies])
    apply Conserves.aside (install_conserves _ hbefore)
    intro _
    exact .aside (install_conserves _ hafter) fun _ => .aside (ih hrest) fun _ => .pure rfl

theorem installConverter_conserves {convert : Converter (List Op)}
    (hconvert : Admits d convert.bodies) :
    Conserves clientOwnership d 0 (installConverter convert) fun _ => 0 := by
  cases convert with
  | builtin => exact .pure rfl
  | custom hooks =>
    refine .aside (installHooks_conserves hconvert) fun hooks => .map ?_
    exact install_conserves (.converter hooks) fun _ _ h => absurd h List.not_mem_nil

theorem nextHook_conserves (id : CodeId) :
    Conserves clientOwnership d 0 (nextHook id) fun _ => 0 := by
  apply Conserves.aside (enterCode_conserves id)
  intro found
  split <;> exact .pure rfl

theorem hooked_conserves (id : CodeId) (arguments : List Handle) (units : α → List Handle)
    {convert : Run (Option α)}
    (hconvert : Conserves clientOwnership d 0 convert (unitsIf fun a => ↑(units a))) :
    Conserves clientOwnership d 0 (hooked id arguments units convert)
      (unitsIf fun a => ↑(units a)) := by
  apply Conserves.aside (nextHook_conserves id)
  intro hook
  split
  · exact hconvert
  · apply Conserves.aside (runBlock_conserves _ arguments)
    intro _
    split
    · exact .pure rfl
    · refine hconvert.next fun out => ?_
      rw [unitsIf_coe]
      apply Conserves.aside (holding_conserves _ (runBlock_conserves _ arguments))
      intro _
      split
      · exact .next (releaseAll_conserves _) fun _ => .pure rfl
      · exact .pure (unitsIf_coe units out).symm

theorem convertIn_conserves (code : Option CodeId) (t : NativeType) (h : Handle) :
    Conserves clientOwnership d 0 (convertIn code t h) (unitsIf fun v => ↑(t.units v)) := by
  cases code with
  | none => exact fromPeer_conserves t h
  | some id => exact hooked_conserves id [h] t.units (fromPeer_conserves t h)

theorem viewObject_reads (quiet : Bool) (h : Handle) : (viewObject quiet h).Reads := by
  refine (typeNameOf_reads h).bind fun _ => (Reads.heap _).bind fun _ => ?_
  split
  · exact (Reads.pure none).bind fun _ => .pure _
  · exact ((repr_reads h).map _).bind fun _ => .pure _

theorem showValue_conserves (t : NativeType) (v : t.Value) :
    Conserves clientOwnership d 0 (showValue t v) fun _ => 0 := by
  induction t generalizing d with
  | i64 | i32 | usize | f64 | bool | text | unit => exact .pure rfl
  | object | callable => exact .reads ((viewObject_reads false v).map _)
  | option t ih =>
    cases v with
    | none => exact .pure rfl
    | some v => exact .map (ih v)
  | pair a b iha ihb =>
    obtain ⟨x, y⟩ := v
    exact .next (iha x) fun _ => .next (ihb y) fun _ => .pure rfl
  | triple a b c iha ihb ihc =>
    obtain ⟨x, y, z⟩ := v
    exact .next (iha x) fun _ => .next (ihb y) fun _ => .next (ihc z) fun _ => .pure rfl
  | vec t ih => exact .next (.mapM fun x _ => ih x) fun _ => .pure rfl
  | view t ih =>
    apply Conserves.next (View.collectSized_conserves (builtinIntake_lawful t) v)
    intro r
    cases r with
    | error f => exact .pure rfl
    | ok vs =>
      have hshow : Conserves clientOwnership d 0 (vs.mapM (showValue t)) fun _ => 0 :=
        .mapM fun x _ => ih x
      have hlend := lending_conserves (vs.flatMap t.units) hshow
      exact .next (hlend.of_eq (add_zero _) fun _ => rfl) fun _ => .pure rfl

theorem intakeOf_lawful (t : NativeType) (convert deleter : Option CodeId) :
    (intakeOf t convert deleter).Lawful clientOwnership := by
  refine ⟨fun d h => convertIn_conserves convert t h, fun d v => ?_⟩
  cases deleter with
  | none => exact releaseAll_conserves (t.units v)
  | some id =>
    have hdelete : Conserves clientOwnership d 0
        (do note (.deleted (← showValue t v)); runBlock id [] : Run Unit) fun _ => 0 := by
      apply Conserves.next (showValue_conserves t v)
      intro shown
      exact .next (note_conserves (.deleted shown)) fun _ => runBlock_conserves id []
    exact (lending_conserves (t.units v) hdelete).of_eq (add_zero _) fun _ => rfl

theorem HeldView.intake_lawful (v : HeldView) : v.intake.Lawful clientOwnership :=
  intakeOf_lawful v.elem v.convert v.deleter

theorem HeldCursor.intake_lawful (c : HeldCursor) : c.intake.Lawful clientOwnership :=
  intakeOf_lawful c.elem c.convert c.deleter

/-- Something shared goes to the orphans if it is in use, and else for good. -/
theorem dropShared_conserved {x : Holding} {n : Nat} (hn : x.share? = some n)
    (henv : env.Lawful clientOwnership) (hw : Ready clientOwnership d ↑x.units w)
    (hx : d = .strict → w.client.Fresh x) :
    ((do
      if (← Act.client).inUse.contains n then
        Act.modifyClient fun c => { c with orphans := (n, x.units) :: c.orphans }
      else releaseAll x.units : Run Unit) env w).Conserved clientOwnership d ↑x.units w
        fun _ => 0 := by
  change ((if w.client.inUse.contains n then _ else _ : Run Unit) env w).Conserved _ _ _ _ _
  split
  · rename_i huse
    refine ⟨.single (.outside rfl (fun _ => ?_) fun hd hc => ?_), rfl⟩
    · simp only [clientOwnership, Client.orphanUnits, List.flatMap_cons, coe_append]
      abel
    · exact hc.orphan (hx hd) hn (by simpa using huse)
  · exact .of_act (releaseAll_conserves x.units) henv hw

theorem drop_conserved {x : Holding} (henv : env.Lawful clientOwnership)
    (hw : Ready clientOwnership d ↑x.units w) (hx : d = .strict → w.client.Fresh x) :
    (x.drop env w).Conserved clientOwnership d ↑x.units w fun _ => 0 := by
  cases x with
  | cursor c => exact .of_act (Cursor.drop_conserves c.intake_lawful c.cursor) henv hw
  | view _ _ | callable _ _ | native _ _ _ => exact dropShared_conserved rfl henv hw hx
  | owned _ | raw _ | saved _ | failure _ | mark _ =>
    exact .of_act (releaseAll_conserves _) henv hw

theorem dropCursor_conserves (c : HeldCursor) :
    Conserves clientOwnership d ↑(Holding.cursor c).units (Holding.cursor c).drop fun _ => 0 :=
  Cursor.drop_conserves c.intake_lawful c.cursor

theorem registers_units (c : Client) :
    clientOwnership.units c =
      c.registers.total (fun x => (↑x.units : Multiset Handle)) + ↑c.orphanUnits := by
  rw [← Registers.coe_units]
  rfl

theorem register?_reads (name : String) : (register? name).Reads :=
  Reads.client.bind fun _ => .pure _

theorem ofRegister {name : String} {g : Option Holding → Run α}
    (hg : ∀ o env w, env.Lawful clientOwnership → Ready clientOwnership d H w →
      w.client.registers.lookup name = o → (g o env w).Conserved clientOwnership d H w K) :
    Conserves clientOwnership d H (register? name >>= g) K :=
  fun env henv w hw => hg _ env w henv hw rfl

theorem empty_conserved {name : String} {x : Holding} {g : Unit → Run α}
    (found : w.client.registers.lookup name = some x) (hw : Ready clientOwnership d 0 w)
    (hg : ∀ w', (d = .strict → w'.client.Fresh x) → Ready clientOwnership d ↑x.units w' →
      (g () env w').Conserved clientOwnership d ↑x.units w' K) :
    ((emptyRegister name >>= g) env w).Conserved clientOwnership d 0 w K := by
  refine .update (I := ↑x.units) { w.client with registers := w.client.registers.erase name }
    (fun hd => ?_) (fun _ hc => hc.erase name) rfl hw
    fun ready => hg _ (fun hd => (hw.sound hd).erase_fresh found) ready
  have htotal := Registers.total_erase (fun x => (↑x.units : Multiset Handle))
    (hw.sound hd).ordered name
  rw [found, Option.elim_some] at htotal
  rw [registers_units, registers_units, ← htotal, Client.orphanUnits]
  abel

theorem store_conserved {name : String} {x : Holding} (henv : env.Lawful clientOwnership)
    (hw : Ready clientOwnership d ↑x.units w) (hx : d = .strict → w.client.Fresh x) :
    (store name x env w).Conserved clientOwnership d ↑x.units w fun _ => 0 := by
  let c : Client := { w.client with registers := w.client.registers.put name x }
  have hunits (hd : d = .strict) : ↑x.units + clientOwnership.units w.client =
      ((w.client.registers.lookup name).elim 0 fun y => ↑y.units) + clientOwnership.units c := by
    have htotal := Registers.total_put (fun x => (↑x.units : Multiset Handle))
      (hw.sound hd).ordered name x
    rw [registers_units, registers_units, ← add_assoc, add_comm (↑x.units : Multiset Handle),
      ← htotal]
    simp only [c, Client.orphanUnits]
    abel
  have hsound (hd : d = .strict) (hc : clientOwnership.sound w.client) : clientOwnership.sound c :=
    hc.put (hx hd) name
  cases found : w.client.registers.lookup name with
  | none =>
    have hrun : store name x env w = .done () { w with client := c } := by
      simp only [store, register?, bind_run, pure_run, Act.client, Act.modifyClient, found, c]
    rw [found] at hunits
    rw [hrun]
    exact .update c hunits hsound rfl hw fun _ => ⟨.refl, rfl⟩
  | some y =>
    have hrun : store name x env w = y.drop env { w with client := c } := by
      simp only [store, register?, bind_run, pure_run, Act.client, Act.modifyClient, found, c]
    rw [found] at hunits
    rw [hrun]
    -- the new one is in the register before the old one goes
    refine .update c hunits hsound rfl hw fun ready => ?_
    exact drop_conserved henv ready fun hd => (hw.sound hd).put_fresh (hx hd) found

theorem store_conserves {x : Holding} (hx : x.share? = none) (name : String) :
    Conserves clientOwnership d ↑x.units (store name x) fun _ => 0 :=
  fun _ henv _ hw => store_conserved henv hw fun _ => Client.fresh_of_unshared hx

theorem keep_conserved {name : Option String} {x : Holding} (henv : env.Lawful clientOwnership)
    (hw : Ready clientOwnership d ↑x.units w) (hx : d = .strict → w.client.Fresh x) :
    (Machine.keep name x env w).Conserved clientOwnership d ↑x.units w fun _ => 0 := by
  cases name with
  | none => exact drop_conserved henv hw hx
  | some name => exact store_conserved henv hw hx

theorem keep_conserves {x : Holding} (hx : x.share? = none) (name : Option String) :
    Conserves clientOwnership d ↑x.units (Machine.keep name x) fun _ => 0 :=
  fun _ henv _ hw => keep_conserved henv hw fun _ => Client.fresh_of_unshared hx

/-- Something with a new number is kept, and then an answer follows. -/
theorem keepShared_conserves {x : Nat → Holding} {units : List Handle} {name : Option String}
    {answer : α} (hshare : ∀ n, (x n).share? = some n) (hunits : ∀ n, (x n).units = units) :
    Conserves clientOwnership d ↑units
      (do
        let share ← newShare
        Machine.keep name (x share)
        pure answer) fun _ => 0 := by
  intro env henv w hw
  change ((Machine.keep name (x w.client.shares) >>= fun _ => pure answer) env
    { w with client := { w.client with shares := w.client.shares + 1 } }).Conserved _ _ _ _ _
  refine .update { w.client with shares := w.client.shares + 1 } (fun _ => rfl)
    (fun _ hc => hc.newShare) rfl hw fun ready => ?_
  rw [← hunits w.client.shares] at ready ⊢
  refine Outcome.Conserved.bind (keep_conserved henv ready fun hd => ?_) fun _ w' _ => ?_
  · exact (hw.sound hd).newShare_fresh (hshare _)
  · exact ⟨.refl, rfl⟩

theorem objectNamed_reads (arguments : List Handle) (name : String) :
    (objectNamed arguments name).Reads := by
  unfold objectNamed
  split
  · split <;> exact .pure _
  · exact (register?_reads name).bind fun _ => .pure _

theorem takeOwned_conserves (name : String) :
    Conserves clientOwnership d 0 (takeOwned name) fun o => ↑o.toList := by
  refine ofRegister fun o env w henv hw found => ?_
  split
  · exact empty_conserved found hw fun w' _ ready => .of_act (.pure rfl) henv ready
  · exact .of_act (.pure rfl) henv hw

theorem takeFailure_conserves (name : String) :
    Conserves clientOwnership d 0 (takeFailure name) fun _ => 0 := by
  refine ofRegister fun o env w henv hw found => ?_
  split
  · exact empty_conserved found hw fun w' _ ready => .of_act (.pure rfl) henv ready
  · exact .of_act (.pure rfl) henv hw

theorem endUse_run (n : Nat) (env : Env Client) (w : World Client) :
    endUse n env w =
      releaseAll (w.client.unuse n).1 env { w with client := (w.client.unuse n).2 } := by
  change (if (w.client.inUse.erase n).contains n then _ else _ : Run Unit) env _ = _
  unfold Client.unuse
  dsimp only
  split <;> rfl

theorem endUse_move (n : Nat) (hw : Ready clientOwnership d H w) :
    Move clientOwnership d (H, w)
      (↑(w.client.unuse n).1 + H, { w with client := (w.client.unuse n).2 }) := by
  refine .outside rfl (fun hd => ?_) fun _ hc => hc.unuse n
  have hunits := (hw.sound hd).unuse_units n
  simp only [clientOwnership, Client.unuse_registers]
  rw [← hunits]
  abel

theorem endUse_cleans (n : Nat) : Cleans clientOwnership (endUse n) := by
  intro env henv w
  have m : Path clientOwnership .lax (0, w) _ := .single (endUse_move n .lax)
  have hout := (releaseAll_conserves (w.client.unuse n).1).cleans env henv
    { w with client := (w.client.unuse n).2 }
  rw [endUse_run]
  cases hr : releaseAll (w.client.unuse n).1 env { w with client := (w.client.unuse n).2 } with
  | done _ w' | fault _ w' =>
    rw [hr] at hout
    exact (m.anyUnits 0 0).trans hout
  | unfinished => trivial

/-- What the use found in hand is there again, and its number is off the list. -/
theorem endUse_conserved (n : Nat) {w₁ : World Client} {I : Multiset Handle}
    (henv : env.Lawful clientOwnership) (hw : Ready clientOwnership d I w₁)
    (m : Path clientOwnership d (H, w) (I, w₁)) (hscope : w₁.client.inUse = n :: w.client.inUse) :
    (endUse n env w₁).Conserved clientOwnership d H w fun _ => I := by
  have m' := m.trans (.single (endUse_move n hw))
  have ready := hw.path (.single (endUse_move n hw))
  rw [endUse_run]
  refine .after m' ?_ ?_
  · change (w₁.client.unuse n).2.inUse = w.client.inUse
    rw [Client.unuse_inUse, hscope, List.erase_cons_head]
  · refine (((releaseAll_conserves (w₁.client.unuse n).1).frame I).of_eq rfl fun _ => ?_) env henv
      _ ready
    exact zero_add I

theorem whileUsing_conserves (n : Nat) {act : Run α}
    (hact : Conserves clientOwnership d H act K) :
    Conserves clientOwnership d H (whileUsing n act) K := by
  intro env henv w hw
  have m : Path clientOwnership d (H, w)
      (H, { w with client := { w.client with inUse := n :: w.client.inUse } }) :=
    .single (.outside rfl (fun _ => rfl) fun _ hc => hc.use n)
  have hout := hact.onFaultOf (endUse_cleans n) env henv _ (hw.path m)
  change ((act.onFault (endUse n) >>= fun a => endUse n >>= fun _ => pure a) env _).Conserved
    _ _ _ _ _
  rw [bind_run]
  cases hr : act.onFault (endUse n) env
      { w with client := { w.client with inUse := n :: w.client.inUse } } with
  | done a w' =>
    rw [hr] at hout
    have hend := endUse_conserved (w := w) n henv ((hw.path m).path hout.1) (m.trans hout.1) hout.2
    exact Outcome.Conserved.bind (x := endUse n) (f := fun _ => pure a) hend
      fun _ _ _ => ⟨.refl, rfl⟩
  | fault c w' =>
    rw [hr] at hout
    exact ⟨m.lax.trans hout.1, hout.2⟩
  | unfinished => trivial

namespace Frame

variable {fr : Frame} {name : String}

theorem yieldObject_conserves (fr : Frame) (o : Option Handle) :
    Conserves clientOwnership d ↑o.toList (fr.yieldObject o) fun _ => 0 := by
  cases o with
  | none => exact .pure rfl
  | some h =>
    apply Conserves.next (holding_conserves [h] (.reads (viewObject_reads fr.quiet h)))
    intro o
    exact .next (keep_conserves (x := .owned h) rfl fr.keep) fun _ => .pure rfl

theorem yieldNative_conserves (fr : Frame) (t : NativeType) (v : t.Value) :
    Conserves clientOwnership d ↑(t.units v) (fr.yieldNative t v) fun _ => 0 := by
  apply Conserves.aside (holding_conserves (t.units v) (showValue_conserves t v))
  intro shown
  exact keepShared_conserves (x := fun n => .native n t v) (fun _ => rfl) fun _ => rfl

theorem yieldFailure_conserves (fr : Frame) (f : Failure) :
    Conserves clientOwnership d 0 (fr.yieldFailure f) fun _ => 0 := by
  unfold yieldFailure
  cases fr.keepFailure with
  | none => exact .pure rfl
  | some name => exact .next (store_conserves (x := .failure f) rfl name) fun _ => .pure rfl

theorem withObject_conserves {f : Handle → Run Answer}
    (hf : ∀ h, Conserves clientOwnership d 0 (f h) fun _ => 0) :
    Conserves clientOwnership d 0 (fr.withObject name f) fun _ => 0 := by
  apply Conserves.ask (objectNamed_reads fr.arguments name)
  intro o
  cases o with
  | none => exact .pure rfl
  | some h => exact hf h

theorem withOwner_conserves {f : Handle → Run Answer}
    (hf : ∀ h, Conserves clientOwnership d 0 (f h) fun _ => 0) :
    Conserves clientOwnership d 0 (withOwner name f) fun _ => 0 := by
  refine .ask (register?_reads name) fun o => ?_
  split
  · exact hf _
  · exact .pure rfl

theorem withView_conserves {f : HeldView → Run Answer}
    (hf : ∀ v, Conserves clientOwnership d 0 (f v) fun _ => 0) :
    Conserves clientOwnership d 0 (withView name f) fun _ => 0 := by
  refine .ask (register?_reads name) fun o => ?_
  split
  · exact whileUsing_conserves _ (hf _)
  · exact .pure rfl

theorem withCallable_conserves {f : HeldCallable → Run Answer}
    (hf : ∀ c, Conserves clientOwnership d 0 (f c) fun _ => 0) :
    Conserves clientOwnership d 0 (withCallable name f) fun _ => 0 := by
  refine .ask (register?_reads name) fun o => ?_
  split
  · exact whileUsing_conserves _ (hf _)
  · exact .pure rfl

theorem withCursor_conserves {f : HeldCursor → Run (HeldCursor × Answer)}
    (hf : ∀ c, Conserves clientOwnership d ↑(Holding.cursor c).units (f c)
      fun r => ↑(Holding.cursor r.1).units) :
    Conserves clientOwnership d 0 (withCursor name f) fun _ => 0 := by
  refine ofRegister fun o env w henv hw found => ?_
  split
  · rename_i c
    refine empty_conserved found hw fun w' _ ready => .of_act ?_ henv ready
    apply Conserves.next (hf c)
    intro r
    exact .next (store_conserves (x := .cursor r.1) rfl name) fun _ => .pure rfl
  · exact .of_act (.pure rfl) henv hw

theorem besideCursor_conserves (c : HeldCursor) {act : Run α}
    (hact : Conserves clientOwnership d H act K) :
    Conserves clientOwnership d H (besideCursor c act) K :=
  hact.onFault (dropCursor_conserves c)

end Frame

mutual

theorem build_conserves (arguments : List Handle) (v : Term) :
    Conserves clientOwnership d 0 (build arguments v) fun o => ↑o.toList := by
  cases v with
  | null | bool | int | float | text =>
    unfold build
    exact .map (allocLeaf_conserves rfl)
  | list items =>
    unfold build
    apply Conserves.next (buildAll_conserves arguments [] items)
    intro hs
    cases hs with
    | none => exact .pure rfl
    | some hs => exact .map (alloc_conserves (.list hs))
  | tuple items =>
    unfold build
    apply Conserves.next (buildAll_conserves arguments [] items)
    intro hs
    cases hs with
    | none => exact .pure rfl
    | some hs => exact .map (newTuple_conserves hs)
  | set items =>
    unfold build
    apply Conserves.next (buildAll_conserves arguments [] items)
    intro hs
    cases hs with
    | none => exact .pure rfl
    | some hs => exact newSet_conserves hs
  | ref name =>
    unfold build
    apply Conserves.ask (objectNamed_reads arguments name)
    intro o
    cases o with
    | none => exact .map (allocLeaf_conserves rfl)
    | some h => exact .map (acquire_conserves rfl)
  | iter v =>
    unfold build
    apply Conserves.next (build_conserves arguments v)
    intro o
    cases o with
    | none => exact .pure rfl
    | some h =>
      apply Conserves.bind {h} (holding_conserves [h] (getIter_conserves h)) (zero_add _).symm
      intro it
      refine .bind ↑it.toList (holding_conserves _ (release_conserves h)) (add_comm _ _)
        fun _ => .pure (zero_add _)
  | some v =>
    unfold build
    exact build_conserves arguments v

theorem buildAll_conserves (arguments built : List Handle) (vs : List Term) :
    Conserves clientOwnership d ↑built (buildAll arguments built vs) (unitsIf fun hs => ↑hs) := by
  cases vs with
  | nil =>
    unfold buildAll
    exact .pure rfl
  | cons v vs =>
    unfold buildAll
    refine .bind ↑built (holding_conserves built (build_conserves arguments v)) (zero_add _).symm
      fun o => ?_
    cases o with
    | none => exact (refuse_conserves _ built).of_eq (zero_add _).symm fun _ => rfl
    | some h =>
      refine (buildAll_conserves arguments (built ++ [h]) vs).of_eq ?_ fun _ => rfl
      rw [coe_append, add_comm]
      rfl

end

theorem readAll_conserves {units : α → List Handle} {read : Term → Run (Option α)}
    (hread : ∀ v, Conserves clientOwnership d 0 (read v) (unitsIf fun a => ↑(units a)))
    (done : List α) (vs : List Term) :
    Conserves clientOwnership d ↑(done.flatMap units) (readAll units read done vs)
      (unitsIf fun as => ↑(as.flatMap units)) := by
  induction vs generalizing done with
  | nil => exact .pure rfl
  | cons v vs ih =>
    apply Conserves.bind _ (holding_conserves _ (hread v)) (zero_add _).symm
    intro o
    cases o with
    | none => exact (refuse_conserves _ _).of_eq (zero_add _).symm fun _ => rfl
    | some a =>
      refine (ih (done ++ [a])).of_eq ?_ fun _ => rfl
      rw [List.flatMap_append, coe_append, add_comm]
      simp [unitsIf]

theorem readValue_conserves (arguments : List Handle) (t : NativeType) (v : Term) :
    Conserves clientOwnership d 0 (readValue arguments t v) (unitsIf fun x => ↑(t.units x)) := by
  induction t generalizing v with
  | i64 | i32 | usize =>
    unfold readValue
    refine .pure ?_
    cases v.integer? <;> rfl
  | f64 =>
    unfold readValue
    split
    · exact .pure rfl
    · refine .pure ?_
      cases floatOfText? _ <;> rfl
    · exact .pure rfl
  | bool | text | unit =>
    unfold readValue
    split <;> exact .pure rfl
  | object =>
    unfold readValue
    exact (build_conserves arguments v).of_eq rfl fun o => by cases o <;> rfl
  | option t ih =>
    unfold readValue
    split
    · exact .pure rfl
    · refine .next (ih _) fun o => .pure ?_
      cases o <;> rfl
    · exact .pure rfl
  | pair a b iha ihb =>
    unfold readValue
    split
    · apply Conserves.next (iha _)
      intro x
      cases x with
      | none => exact .pure rfl
      | some x =>
        apply Conserves.bind ↑(a.units x) (holding_conserves _ (ihb _)) (zero_add _).symm
        intro y
        cases y with
        | none => exact (refuse_conserves _ _).of_eq (zero_add _).symm fun _ => rfl
        | some y =>
          refine .pure ?_
          simp only [unitsIf, NativeType.units, coe_append]
          exact add_comm _ _
    · exact .pure rfl
  | triple a b c iha ihb ihc =>
    unfold readValue
    split
    · apply Conserves.next (iha _)
      intro x
      cases x with
      | none => exact .pure rfl
      | some x =>
        apply Conserves.bind ↑(a.units x) (holding_conserves _ (ihb _)) (zero_add _).symm
        intro y
        cases y with
        | none => exact (refuse_conserves _ _).of_eq (zero_add _).symm fun _ => rfl
        | some y =>
          refine .bind ↑(a.units x ++ b.units y) (holding_conserves _ (ihc _)) ?_ fun z => ?_
          · rw [unitsIf, coe_append, zero_add, add_comm]
          cases z with
          | none => exact (refuse_conserves _ _).of_eq (zero_add _).symm fun _ => rfl
          | some z =>
            refine .pure ?_
            simp only [unitsIf, NativeType.units, coe_append]
            abel
    · exact .pure rfl
  | vec t ih =>
    unfold readValue
    cases v with
    | list items => exact readAll_conserves ih [] items
    | _ => exact .pure rfl
  | view | callable =>
    unfold readValue
    exact .pure rfl

end Causeway.Machine
