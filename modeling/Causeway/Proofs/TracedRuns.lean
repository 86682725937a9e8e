import Causeway.Proofs.LinearStates
import Causeway.Proofs.ReferenceTrace
/-!
# Runs and their reference traces

A program goes in paces from world to world, inside user code of any depth: an operation of the heap
with the event that tells of it, a change of the settings, something about the client. Over a stretch
of paces in which references are traced, the log accounts for the heap. A stretch may start anywhere
a program gets to, be it in the midst of user code or where an operation turns tracing on.
-/
set_option autoImplicit false

namespace Causeway.Machine

open Act

variable {α : Type} {S : Bool → Prop} {env env' : Env Client} {first w w₁ w' : World Client}

/-- The operation, or one in a script inside it, applies the settings. -/
inductive Op.Applies (s : Settings) : Op → Prop where
  | here {document : String} {keep keepFailure : Option String} {quiet : Bool} {c : Config}
      (valid : Config.ofDocument document = .ok c) (same : c.settings = s) :
      Applies s (.op (.apply document) keep keepFailure quiet)
  | inside {command : Command (List Op)} {keep keepFailure : Option String} {quiet : Bool}
      {body : List Op} {op : Op} (hbody : body ∈ command.bodies) (hop : op ∈ body)
      (applies : Applies s op) : Applies s (.op command keep keepFailure quiet)

/-- Wherever the operation applies settings it sets tracing to what `S` allows. -/
def Op.Within (S : Bool → Prop) (op : Op) : Prop := ∀ s, op.Applies s → S s.traceReferences

theorem Op.Within.bodies {command : Command (List Op)} {keep keepFailure : Option String}
    {quiet : Bool} (h : Op.Within S (.op command keep keepFailure quiet)) :
    MadeOf (Op.Within S) command.bodies :=
  fun _ hbody _ hop s applies => h s (.inside hbody hop applies)

def CodeWithin (S : Bool → Prop) (c : Client) : Prop :=
  ∀ code ∈ c.codes, MadeOf (Op.Within S) code.1.bodies

def telling (e : Log.Event) (w : World Client) : World Client :=
  if w.settings.traceReferences then { w with client := Client.observe e w.client } else w

/-- What happens to the world at a time. -/
inductive Pace (w : World Client) : World Client → Prop where
  | insert (p : Payload) : Pace w (telling (.allocated (w.heap.insert p).1 p.typeName)
      { w with heap := (w.heap.insert p).2 })
  | increment {h : Handle} {n : Nat} {heap : Heap} (done : w.heap.increment? h = some (n, heap)) :
      Pace w (telling (.acquired h n) { w with heap })
  | alive {h : Handle} {n : Nat} {heap : Heap} (done : w.heap.decrement? h = some (.alive n, heap)) :
      Pace w (telling (.released h n) { w with heap })
  | dead {h : Handle} {p : Payload} {heap : Heap}
      (done : w.heap.decrement? h = some (.dead p, heap)) :
      Pace w (telling (.deallocated h p.typeName) { w with heap })
  | setPayload (h : Handle) (p : Payload) : Pace w { w with heap := w.heap.setPayload h p }
  | emit (e : Log.Event) (he : e.object? = none) :
      Pace w { w with client := Client.observe e w.client }
  | swap (next : Option Raised) : Pace w { w with pending := next }
  | configure (settings : Settings) : Pace w { w with settings }
  | client (c : Client) (log : c.log = w.client.log) : Pace w { w with client := c }

/-- Paces between worlds in which tracing is set to what `S` allows. -/
abbrev Stretch (S : Bool → Prop) : World Client → World Client → Prop :=
  Relation.ReflTransGen fun w w' =>
    S w.settings.traceReferences ∧ Pace w w' ∧ S w'.settings.traceReferences

/-- Paces from the start of a program lead here. -/
def Reached (w : World Client) : Prop :=
  ∃ tracing settings, Stretch (fun _ => True) (Program.start tracing settings) w

structure Passes (S : Bool → Prop) (first w : World Client) : Prop where
  code : CodeWithin S w.client
  allowed : S w.settings.traceReferences
  stretch : Stretch S first w

theorem telling_client (e : Log.Event) (w : World Client) :
    telling e w = { w with client := (telling e w).client } := by
  unfold telling
  split <;> rfl

theorem telling_codes (e : Log.Event) (w : World Client) :
    (telling e w).client.codes = w.client.codes := by
  unfold telling
  split
  · exact observe_codes e w.client
  · rfl

theorem telling_settings (e : Log.Event) (w : World Client) :
    (telling e w).settings = w.settings := by
  rw [telling_client]

theorem report_eq_telling (observe : env.observe = Client.observe) (e : Log.Event)
    (w : World Client) : env.report e w = telling e w := by
  unfold Env.report telling
  rw [observe]

namespace Passes

theorem refl (code : CodeWithin S w.client) (allowed : S w.settings.traceReferences) :
    Passes S w w :=
  ⟨code, allowed, .refl⟩

theorem pace (h : Passes S first w) (pace : Pace w w') (code : CodeWithin S w'.client)
    (allowed : S w'.settings.traceReferences) : Passes S first w' :=
  ⟨code, allowed, h.stretch.tail ⟨h.allowed, pace, allowed⟩⟩

theorem still (h : Passes S first w) (pace : Pace w w')
    (codes : w'.client.codes = w.client.codes) (settings : w'.settings = w.settings) :
    Passes S first w' :=
  h.pace pace (by rw [CodeWithin, codes]; exact h.code) (settings ▸ h.allowed)

theorem steps (observe : env.observe = Client.observe) : env.Steps (Passes S first) where
  insert w p h := by
    rw [report_eq_telling observe]
    exact h.still (.insert p) (telling_codes _ _) (telling_settings _ _)
  increment done h := by
    rw [report_eq_telling observe]
    exact h.still (.increment done) (telling_codes _ _) (telling_settings _ _)
  alive done h := by
    rw [report_eq_telling observe]
    exact h.still (.alive done) (telling_codes _ _) (telling_settings _ _)
  dead done h := by
    rw [report_eq_telling observe]
    exact h.still (.dead done) (telling_codes _ _) (telling_settings _ _)
  setPayload w k p h := h.still (.setPayload k p) rfl rfl
  emit w e he h := by
    rw [observe]
    exact h.still (.emit e he) (observe_codes e w.client) rfl
  swap w next h := h.still (.swap next) rfl rfl

end Passes

/-- What the client does by itself goes in paces that `S` allows, if its user code does. -/
def Keeping (S : Bool → Prop) (first : World Client) (α : Type) (act : Run α) : Prop :=
  ∀ env env' : Env Client, env.observe = Client.observe → env.Keeps (Passes S first) env' →
    act.Keeps (Passes S first) env env'

theorem Keeping.of_composed {act : Run α} (h : Composed (Keeping S first) act) :
    Keeping S first α act :=
  fun env env' observe henv =>
    h.keeps (Passes.steps observe) henv fun _ _ hact => hact env env' observe henv

theorem modify_keeps {f : Client → Client} (log : ∀ c, (f c).log = c.log)
    (code : ∀ c, CodeWithin S c → CodeWithin S (f c)) :
    (Act.modifyClient f).Keeps (Passes S first) env env' :=
  .of_done fun w h =>
    ⟨(), _, rfl, rfl, h.pace (.client (f w.client) (log w.client)) (code _ h.code) h.allowed⟩

theorem codeAt_keeps {f : Option Code → Run α} (id : CodeId)
    (hf : ∀ o, (∀ code, o = some code → MadeOf (Op.Within S) code.bodies) →
      (f o).Keeps (Passes S first) env env') :
    (codeAt id >>= f).Keeps (Passes S first) env env' := by
  intro w h
  refine hf (w.client.codes[id]?.map (·.1)) (fun code hfound => ?_) w h
  obtain ⟨⟨_, runs⟩, hentry, rfl⟩ := Option.map_eq_some_iff.1 hfound
  exact h.code _ (Array.mem_of_getElem? hentry)

theorem install_keeps {code : Code} (hcode : MadeOf (Op.Within S) code.bodies) :
    (install code).Keeps (Passes S first) env env' := by
  refine .bind (.reads .client) fun c => .bind (modify_keeps (fun _ => rfl) ?_) fun _ => .pure _
  intro c hcodes entry hentry
  obtain hentry | rfl := Array.mem_push.1 hentry
  · exact hcodes entry hentry
  · exact hcode

theorem enterCode_keeps (id : CodeId) : (enterCode id).Keeps (Passes S first) env env' := by
  refine .of_done fun w h => ?_
  unfold enterCode
  rw [bind_run, bind_run]
  simp only [Act.client]
  cases hid : w.client.codes[id]? with
  | none => exact ⟨none, w, rfl, rfl, h⟩
  | some found =>
    refine ⟨_, _, rfl, rfl, h.pace (.client _ rfl) (fun entry hentry => ?_) h.allowed⟩
    obtain hentry | rfl := Array.mem_or_eq_of_mem_setIfInBounds hentry
    · exact h.code entry hentry
    · exact h.code found (Array.mem_of_getElem? hid)

instance : Held (Keeping S first) where
  ops := Op.Within S
  settings s := S s.traceReferences
  modify log codes := .own fun _ _ _ _ =>
    modify_keeps log fun c hcode => by rwa [CodeWithin, codes]
  enter id := .own fun _ _ _ _ => enterCode_keeps id
  configure {s} allowed := .own fun _ _ _ _ =>
    .of_done fun w h => ⟨(), _, rfl, rfl, h.pace (.configure s) h.code allowed⟩
  deliver allowed := .own fun _ _ _ _ => install_keeps allowed
  enlist _ _ allowed := .own fun _ _ observe henv =>
    .bind (install_keeps allowed) fun _ => .alloc (Passes.steps observe) henv _
  look id hf := .own fun env env' observe henv =>
    codeAt_keeps id fun o ho => Keeping.of_composed (hf o ho) env env' observe henv
  scripts allowed := allowed.bodies
  applied allowed valid := allowed _ (.here valid rfl)

theorem enterDealloc_keeps (observe : env.observe = Client.observe)
    (henv : env.Keeps (Passes S first) env') (id : CodeId) (units : List Handle) :
    (enterDealloc id units).Keeps (Passes S first) env env' := by
  have hact : ∀ {α : Type} {act : Run α}, Composed (Keeping S first) act →
      act.Keeps (Passes S first) env env' :=
    fun h => Keeping.of_composed h env env' observe henv
  have hrelease : (releaseAll units : Run Unit).Keeps (Passes S first) env env' :=
    .releaseAll henv units
  refine codeAt_keeps id fun o ho => ?_
  split
  · rename_i name ops
    have hops := hact (heldOps_composed [] (ho _ rfl ops (List.mem_singleton.2 rfl)))
    refine .bind (hact (note_composed _)) fun _ => .bind (.onFault ?_ hrelease) fun _ =>
      .bind hrelease fun _ => .pure _
    exact .bind hops fun _ => .emit (Passes.steps observe) henv rfl
  · exact hrelease

theorem Hooks.Keeps.onlyAt {U : Type} {I P : World U → Prop} {hooks hooks' : Hooks U}
    (h : hooks.Keeps I hooks') (hP : ∀ w, I w → P w) : hooks.Keeps I (hooks'.onlyAt P) where
  call code hs w hw := by
    simp only [Hooks.onlyAt, if_pos (hP w hw)]
    exact h.call code hs w hw
  slot code obj w hw := by
    simp only [Hooks.onlyAt, if_pos (hP w hw)]
    exact h.slot code obj w hw
  measure code obj w hw := by
    simp only [Hooks.onlyAt, if_pos (hP w hw)]
    exact h.measure code obj w hw
  destroy code units w hw := by
    simp only [Hooks.onlyAt, if_pos (hP w hw)]
    exact h.destroy code units w hw
  toPeer code t v w hw := by
    simp only [Hooks.onlyAt, if_pos (hP w hw)]
    exact h.toPeer code t v w hw

theorem tie_observe {U : Type} (observe : Log.Event → U → U) (user : Env U → Hooks U) (n : Nat) :
    (Env.tie observe user n).observe = observe := by
  cases n <;> rfl

namespace Program

variable {n : Nat} {ops : List Op} {entries : List Entry}

/-- User code may as well be entered only where the stretch has led. -/
theorem envOf_keeps (n : Nat) : (envOf n).Keeps (Passes S first) (envAt (Passes S first) n) := by
  refine tie_keeps (fun n => Passes.steps (tie_observe _ _ n)) (fun n henv => ?_) n
  have hact : ∀ {α : Type} {act : Run α}, Composed (Keeping S first) act →
      act.Keeps (Passes S first) (envOf n) (envAt (Passes S first) n) :=
    fun h => Keeping.of_composed h _ _ (tie_observe _ _ n) henv
  exact Hooks.Keeps.onlyAt
    ⟨fun id hs => hact (enterCall_composed id hs), fun id obj => hact (enterSlot_composed id obj),
      fun id obj => hact (enterHint_composed id obj),
      fun id units => enterDealloc_keeps (tie_observe _ _ n) henv id units,
      fun id t v => hact (enterConverter_composed id t v)⟩ fun _ => id

theorem composed_keeps {act : Run α} (h : Composed (Keeping S first) act) (n : Nat) :
    act.Keeps (Passes S first) (envOf n) (envAt (Passes S first) n) :=
  Keeping.of_composed h _ _ (tie_observe _ _ n) (envOf_keeps n)

theorem steps_keeps (hops : ∀ op ∈ ops, op.Within S) (hw : Passes S first w)
    (run : steps (envOf n) ops w = some (entries, w')) :
    steps (envAt (Passes S first) n) ops w = some (entries, w') ∧ Passes S first w' := by
  induction ops generalizing w entries with
  | nil =>
    cases run
    exact ⟨rfl, hw⟩
  | cons op ops ih =>
    obtain ⟨hsame, hends⟩ :=
      composed_keeps (heldOp_composed [] (hops op List.mem_cons_self)) n w hw
    unfold Program.steps at run ⊢
    rw [hsame]
    cases hr : runOp [] op (envOf n) w with
    | done entry w₁ =>
      rw [hr] at run
      obtain ⟨rest, hrest, heq⟩ := Option.map_eq_some_iff.1 run
      cases heq
      obtain ⟨hsame', hw'⟩ :=
        ih (fun op hop => hops op (List.mem_cons_of_mem _ hop)) (hends w₁ (hr ▸ rfl)) hrest
      dsimp only
      rw [hsame']
      exact ⟨rfl, hw'⟩
    | fault c w₁ =>
      rw [hr] at run
      cases run
      exact ⟨rfl, hends w' (hr ▸ rfl)⟩
    | unfinished =>
      rw [hr] at run
      cases run

theorem close_keeps (n : Nat) :
    close.Keeps (Passes S first) (envOf n) (envAt (Passes S first) n) := by
  have hmodify : ∀ {f : Client → Client}, (∀ c, (f c).log = c.log) → (∀ c, (f c).codes = c.codes) →
      (Act.modifyClient f).Keeps (Passes S first) (envOf n) (envAt (Passes S first) n) :=
    fun log codes => composed_keeps (modify_composed log codes) n
  have hempty : emptyRegisters.Keeps (Passes S first) (envOf n) (envAt (Passes S first) n) := by
    refine .loop (envOf_keeps n).budget (fun faults => .bind (.reads .client) fun c => ?_) _
    split
    · exact .pure _
    · refine .bind (composed_keeps (emptyRegister_composed _) n) fun _ =>
        .bind (.caught (composed_keeps (drop_composed _) n)) fun r => ?_
      cases r <;> exact .pure _
  refine .bind (.bind (.reads .client) fun _ => .bind (hmodify ?_ ?_) fun _ =>
    .bind (.bind hempty fun _ => .bind (composed_keeps shutDown_composed n) fun _ => .pure _)
      fun _ => .bind (.reads .client) fun _ => .bind (hmodify ?_ ?_) fun _ => .pure _)
        fun _ => .bind (.reads .world) fun _ => .pure _
  all_goals exact fun _ => rfl

/-- Operations, a script and the close of a program: what starts here goes in paces that `S` allows,
and enters user code only where these have led. -/
structure Continues (S : Bool → Prop) (n : Nat) (w : World Client) : Prop where
  operations : ∀ ops entries w', (∀ op ∈ ops, op.Within S) →
    steps (envOf n) ops w = some (entries, w') →
      steps (envAt (Passes S w) n) ops w = some (entries, w') ∧ Passes S w w'
  script : ∀ arguments ops, (∀ op ∈ ops, op.Within S) → (runOps arguments ops (envOf n) w).Keeps
    (Passes S w) (runOps arguments ops (envAt (Passes S w) n) w)
  closing : (close (envOf n) w).Keeps (Passes S w) (close (envAt (Passes S w) n) w)

theorem continues_of_within (code : CodeWithin S w.client) (allowed : S w.settings.traceReferences)
    (n : Nat) : Continues S n w where
  operations _ _ _ hops run := steps_keeps hops (.refl code allowed) run
  script arguments _ hops := composed_keeps (heldOps_composed arguments hops) n w (.refl code allowed)
  closing := close_keeps n w (.refl code allowed)

end Program

structure Shows (s : Scene) (w : World Client) : Prop where
  heap : s.heap = w.heap
  log : s.log.map Prod.snd = w.client.log.toList

/-- The scene of a world where a stretch starts: slots were vacated as often as their generations
say. -/
def sceneAt (w : World Client) : Scene where
  heap := w.heap
  vacated i := (w.heap.generation i).toNat
  log := w.client.log.toList.map (none, ·)

theorem sceneAt_shows (w : World Client) : Shows (sceneAt w) w where
  heap := rfl
  log := by simp [sceneAt, Function.comp_def]

theorem sceneAt_tells (inOrder : w.heap.InOrder) : (sceneAt w).Tells where
  inOrder := inOrder
  generation _ := UInt32.ofNat_toNat.symm

/-- From here to there the log accounts for the heap. -/
def LogAccounts (w w' : World Client) : Prop :=
  ∃ events t, Shows t w' ∧ (sceneAt w).Accounts events t

theorem Shows.report {s : Scene} (hs : Shows s w) (tracing : w.settings.traceReferences = true)
    (e : Log.Event) (o : Tenant) : Shows (s.report o e) (telling e w) := by
  rw [telling, if_pos tracing]
  refine ⟨hs.heap, ?_⟩
  rw [Scene.report, List.map_append, hs.log, observe_log, Array.toList_push]
  rfl

theorem Pace.inOrder (pace : Pace w w') (inOrder : w.heap.InOrder) : w'.heap.InOrder := by
  cases pace with
  | insert p =>
    rw [telling_client]
    exact Heap.insert_inOrder inOrder p
  | increment done =>
    rw [telling_client]
    exact Heap.increment?_inOrder done inOrder
  | alive done | dead done =>
    rw [telling_client]
    exact Heap.decrement?_inOrder done inOrder
  | setPayload h p => exact Heap.setPayload_inOrder inOrder h p
  | emit | swap | configure | client => exact inOrder

theorem Reached.inOrder (h : Reached w) : w.heap.InOrder := by
  obtain ⟨tracing, settings, stretch⟩ := h
  induction stretch with
  | refl => exact Heap.empty_inOrder
  | tail _ pace ih => exact pace.2.1.inOrder ih

theorem Reached.stretch (h : Reached w) (stretch : Stretch S w w') : Reached w' := by
  obtain ⟨tracing, settings, hstretch⟩ := h
  refine ⟨tracing, settings, hstretch.trans ?_⟩
  exact stretch.lift id fun _ _ pace => ⟨trivial, pace.2.1, trivial⟩

/-- With references traced each pace is a step from scene to scene, or nothing is to be seen of
it. -/
theorem Pace.scene (pace : Pace w w') (tracing : w.settings.traceReferences = true) {s : Scene}
    (hs : Shows s w) : ∃ t, Scene.Run s t ∧ Shows t w' := by
  have hreport : ∀ heap o e, Shows (({ s with heap } : Scene).report o e)
      (telling e { w with heap }) := fun heap o e => by
    have hheap : Shows { s with heap } { w with heap } := ⟨rfl, hs.log⟩
    exact hheap.report tracing e o
  cases pace with
  | insert p =>
    refine ⟨_, .single (.insert p), ?_⟩
    rw [hs.heap]
    exact hreport _ _ _
  | increment done =>
    exact ⟨_, .single (.increment (hs.heap ▸ done)), hreport _ _ _⟩
  | alive done => exact ⟨_, .single (.alive (hs.heap ▸ done)), hreport _ _ _⟩
  | @dead h p heap done =>
    have hvacate : Shows (({ s with heap } : Scene).vacate h.index) { w with heap } :=
      ⟨rfl, hs.log⟩
    exact ⟨_, .single (.dead (hs.heap ▸ done)), hvacate.report tracing _ _⟩
  | setPayload h p =>
    exact ⟨_, .single (.setPayload h p), congrArg (·.setPayload h p) hs.heap, hs.log⟩
  | emit e he =>
    refine ⟨_, .single (.aside e he), hs.heap, ?_⟩
    rw [List.map_append, hs.log, observe_log, Array.toList_push]
    rfl
  | swap | configure => exact ⟨s, .refl, hs.heap, hs.log⟩
  | client c log => exact ⟨s, .refl, hs.heap, log ▸ hs.log⟩

theorem stretch_scene (stretch : Stretch (· = true) w w') {s : Scene} (hs : Shows s w) :
    ∃ t, Scene.Run s t ∧ Shows t w' := by
  induction stretch with
  | refl => exact ⟨s, .refl, hs⟩
  | tail _ pace ih =>
    obtain ⟨t, run, hshows⟩ := ih
    obtain ⟨u, run', hshows'⟩ := pace.2.1.scene pace.1 hshows
    exact ⟨u, run.trans run', hshows'⟩

theorem Reached.accounted (h : Reached w) (stretch : Stretch (· = true) w w') : LogAccounts w w' := by
  obtain ⟨t, run, hshows⟩ := stretch_scene stretch (sceneAt_shows w)
  obtain ⟨events, haccounts⟩ := (sceneAt_tells h.inOrder).accounts run
  exact ⟨events, t, hshows, haccounts⟩

/-- Here tracing has just been turned on, at the latest by the start of the program. -/
inductive Opens (w : World Client) : Prop where
  | start (tracing : Bool) (settings : Settings) (same : w = Program.start tracing settings)
  | switched {w₀ : World Client} (reached : Reached w₀)
      (untraced : w₀.settings.traceReferences = false) (same : w = { w₀ with settings := w.settings })

def TurnsOff (w w' : World Client) : Prop :=
  ∃ w₁ w₂, Stretch (· = true) w w₁ ∧ w₂ = { w₁ with settings := w₂.settings } ∧
    w₂.settings.traceReferences = false ∧ Stretch (fun _ => True) w₂ w'

theorem Pace.switches (pace : Pace w w')
    (switch : w'.settings.traceReferences ≠ w.settings.traceReferences) :
    w' = { w with settings := w'.settings } := by
  cases pace with
  | configure => rfl
  | insert | increment | alive | dead => exact absurd (by rw [telling_settings]) switch
  | setPayload | emit | swap | client => exact absurd rfl switch

/-- Where references are traced they have been since some moment. -/
theorem Reached.opened (h : Reached w) (traced : w.settings.traceReferences = true) :
    ∃ w₀, Reached w₀ ∧ Opens w₀ ∧ Stretch (· = true) w₀ w := by
  obtain ⟨tracing, settings, stretch⟩ := h
  induction stretch with
  | refl => exact ⟨_, ⟨tracing, settings, .refl⟩, .start tracing settings rfl, .refl⟩
  | @tail w₁ w₂ before pace ih =>
    have hreached : Reached w₁ := ⟨tracing, settings, before⟩
    cases hw₁ : w₁.settings.traceReferences with
    | true =>
      obtain ⟨w₀, hw₀, hopens, hstretch⟩ := ih hw₁
      exact ⟨w₀, hw₀, hopens, hstretch.tail ⟨hw₁, pace.2.1, traced⟩⟩
    | false =>
      have hswitch := pace.2.1.switches (by rw [hw₁, traced]; exact nofun)
      exact ⟨w₂, ⟨tracing, settings, before.tail pace⟩, .switched hreached hw₁ hswitch, .refl⟩

theorem stretch_or_turnsOff (traced : w.settings.traceReferences = true)
    (stretch : Stretch S w w') : Stretch (· = true) w w' ∧ w'.settings.traceReferences = true ∨
      TurnsOff w w' := by
  induction stretch with
  | refl => exact .inl ⟨.refl, traced⟩
  | @tail w₁ w₂ _ pace ih =>
    obtain ⟨hstretch, hw₁⟩ | ⟨u₁, u₂, hon, hswitch, hoff, hrest⟩ := ih
    · cases hw₂ : w₂.settings.traceReferences with
      | true => exact .inl ⟨hstretch.tail ⟨hw₁, pace.2.1, hw₂⟩, rfl⟩
      | false =>
        have hswitch := pace.2.1.switches (by rw [hw₁, hw₂]; exact nofun)
        exact .inr ⟨w₁, w₂, hstretch, hswitch, hw₂, .refl⟩
    · exact .inr ⟨u₁, u₂, hon, hswitch, hoff, hrest.tail ⟨trivial, pace.2.1, trivial⟩⟩

namespace Program

/-- After tracing is turned on a native object is made that owns a unit of another object. When it
goes, its dealloc slot makes an object in the slot that has just been vacated, and then gives the
unit back. -/
def succession : List Op :=
  [.op (.new .null) (some "a") none false, .op (.clone "a") (some "b") none false,
    .op (.nativeObject "node" none none none ["b"] [.op (.new .null) none none false]) (some "c")
      none false,
    .op (.drop "a") none none false, .op (.drop "c") none none false,
    .op (.drop "x") none none false]

def untraced : List Op :=
  [.op (.new .null) (some "x") none false,
    .op (.apply "runtime.trace_refcounts=true") none none false]

theorem succession_log :
    ((steps (envOf 6) untraced (start false {})).bind fun r =>
      (steps (envOf 6) succession r.2).map fun r' =>
        (r.2.client.log.toList, r.2.settings.traceReferences, r.2.client.codes.size,
          [0, 1].map r.2.heap.generation, r'.2.client.log.toList)) =
      some ([], true, 0, [0, 0],
        [.allocated ⟨1, 0⟩ "NoneType", .acquired ⟨1, 0⟩ 2, .allocated ⟨2, 0⟩ "node",
          .released ⟨1, 0⟩ 1, .deallocated ⟨2, 0⟩ "node", .allocated ⟨2, 1⟩ "NoneType",
          .deallocated ⟨2, 1⟩ "NoneType", .stateDropped StateKind.scripted.path,
          .deallocated ⟨1, 0⟩ "NoneType", .deallocated ⟨0, 0⟩ "NoneType"]) := by
  decide +kernel

theorem succession_within {op : Op} (hop : op ∈ succession) : op.Within (· = true) := by
  have hnew : ∀ v keep s, ¬ Op.Applies s (.op (.new v) keep none false) := by
    intro v keep s applies
    cases applies with
    | inside hbody => cases hbody
  intro s applies
  simp only [succession, List.mem_cons, List.not_mem_nil, or_false] at hop
  obtain rfl | rfl | rfl | rfl | rfl | rfl := hop
  · exact absurd applies (hnew _ _ s)
  · cases applies with
    | inside hbody => cases hbody
  · cases applies with
    | inside hbody hop applies =>
      simp only [Command.bodies, List.flatMap_cons, List.flatMap_nil, Option.toList_none,
        List.nil_append, List.mem_singleton] at hbody
      rw [hbody, List.mem_singleton] at hop
      rw [hop] at applies
      exact absurd applies (hnew _ _ s)
  all_goals
    cases applies with
    | inside hbody => cases hbody

end Program

end Causeway.Machine
