import Causeway.Proofs.BoundPasses
/-!
# Probing leaves no trace

A probe is invisible: the indicator is what it was, whatever the probed object is made of, and of an
object of the library's own nothing else is touched either. So it makes no difference to a pass
whether the iterable was asked for its length first, as long as there can be room for that length.
-/
set_option autoImplicit false

namespace Causeway

open Act

variable {U α : Type} {env : Env U} {w : World U} {h : Handle} {R : U → U → Prop} {wild : Prop}

def World.reserving (w : World U) (reserve : Bool) : World U :=
  { w with settings := { w.settings with reserveFromHint := reserve } }

/-- The first side may ask for lengths where the other does not, and the client may differ in what
`R` leaves open. Peer functions are only called by what else runs user code. -/
def hintBond (R : U → U → Prop) (wild : Prop) : Bond U where
  settings s s' :=
    s.traceReferences = s'.traceReferences ∧ s.strictIndicator = s'.strictIndicator ∧
      (s'.reserveFromHint = true → s.reserveFromHint = true)
  client := R
  calls := wild
  wild := wild
  tolerant := True
  traces h := h.1
  strictness _ _ _ h := h.2.1
  tolerant_of_wild _ := trivial

/-- To whatever the client has in common it makes no difference that one side notes an event. -/
def Deaf (R : U → U → Prop) (observe : Log.Event → U → U) : Prop :=
  ∀ e u u', R u u' → R (observe e u) u' ∧ R u (observe e u')

/-- User code that looks neither at the setting nor at what `R` leaves open of the client, if all
that it enters in turn does not either. -/
def Blind (R : U → U → Prop) (user : Env U → Hooks U) : Prop :=
  ∀ {env env' : Env U}, (hintBond R True).Joins env env' →
    (hintBond R True).HooksAgree (user env) (user env')

section

variable {observe : Log.Event → U → U} {user : Env U → Hooks U}

theorem hintBond_joins (hdeaf : Deaf R observe)
    (huser : wild → ∀ {env env' : Env U}, (hintBond R wild).Joins env env' →
      (hintBond R wild).HooksAgree (user env) (user env')) (n : Nat) :
    (hintBond R wild).Joins (.tie observe user n) (.tie observe user n) := by
  refine Bond.tie_joins ?_ (fun {env env'} hj => ?_) n
  · intro e u u' _ hR
    exact (hdeaf e _ _ (hdeaf e u u' hR).1).2
  · exact ⟨fun hwild => (huser hwild hj).call hwild, fun hwild => (huser hwild hj).slot hwild,
      fun hwild => (huser hwild hj).measure hwild, fun hwild => (huser hwild hj).destroy hwild,
      fun hwild => (huser hwild hj).toPeer hwild⟩

theorem tie_deaf (hdeaf : Deaf R observe) (n : Nat) :
    (hintBond R wild).Deaf (.tie observe user n) (.tie observe user n) := by
  cases n <;> exact hdeaf

theorem hintBond_asksFirst : (hintBond R wild).AsksFirst := fun hsettings => hsettings.2.2

theorem collectSized_coincides {short : Prop} {p : Intake U α} (hdeaf : Deaf R observe)
    (huser : wild → ∀ {env env' : Env U}, (hintBond R wild).Joins env env' →
      (hintBond R wild).HooksAgree (user env) (user env')) (n : Nat)
    (hp : (hintBond R wild).IntakeAgrees (.tie observe user n) (.tie observe user n) short p)
    (hfits : (hintBond R wild).FitsHeap w.heap) (hR : R w.client w.client)
    (stock : ∀ q, w.heap.payload? h = some q → q.Stock)
    (room : ¬View.Overstates p h (.tie observe user n) (w.reserving true)) :
    (View.collectSized p h (.tie observe user n) (w.reserving true)).Coincides R
        (View.collectSized p h (.tie observe user n) (w.reserving false)) ∨
      short ∧ (View.collectSized p h (.tie observe user n) (w.reserving true)).Overflows := by
  have hw : (hintBond R wild).Holds (w.reserving true) (w.reserving false) :=
    ⟨rfl, rfl, ⟨rfl, rfl, nofun⟩, hR, hfits⟩
  exact (Bond.collectSized_matches (hintBond_joins hdeaf huser n) hp (tie_deaf hdeaf n)
    hintBond_asksFirst hw (.inl trivial) stock room).imp_left Bond.Matches.coincides

theorem collectSized_plain (hdeaf : Deaf R observe) (user : Env U → Hooks U) (n : Nat)
    (plain : ∀ k p, w.heap.payload? k = some p → p.Plain) (hR : R w.client w.client)
    (t : NativeType) (h : Handle)
    (room : ¬View.Overstates (builtinIntake t) h (.tie observe user n) (w.reserving true)) :
    (View.collectSized (builtinIntake t) h (.tie observe user n) (w.reserving true)).Coincides R
        (View.collectSized (builtinIntake t) h (.tie observe user n) (w.reserving false)) ∨
      ¬t.Flat ∧ (View.collectSized (builtinIntake t) h (.tie observe user n)
        (w.reserving true)).Overflows := by
  have hj : (hintBond R False).Joins (.tie observe user n) (.tie observe user n) :=
    hintBond_joins hdeaf False.elim n
  have hsizes (hflat : ¬t.Flat) :
      (hintBond R False).SizesAgree (.tie observe user n) (.tie observe user n) (¬t.Flat) := by
    rw [eq_true hflat]
    exact Bond.sizes_of_deaf hj id (tie_deaf hdeaf n) hintBond_asksFirst
  exact collectSized_coincides hdeaf False.elim n (Bond.builtinIntake_agrees hj t hsizes)
    (fun k p hp => .inr (plain k p hp)) hR (fun p hp => (plain h p hp).stock) room

end

/-- Whatever the slots of the object and the destructor of what they give do to the indicator, the
probes leave it as it was; and they come back when the slots and the destructor do. -/
structure KeepsIndicator (env : Env U) (w : World U) (h : Handle) : Prop where
  isIterable : ∀ b w', isIterable h env w = .done b w' → w'.pending = w.pending
  lengthHint : ∀ n w', lengthHint h env w = .done n w' → w'.pending = w.pending
  make : ∀ f w', View.make h env w = .done (.error f) w' → w'.pending = w.pending
  isIterable_returns : ∀ it w₁ w₂, getIter h env w.hushed = .done it w₁ →
    releaseAll it.toList env w₁ = .done () w₂ → ∃ b w', Causeway.isIterable h env w = .done b w'
  lengthHint_returns : (∀ d s slot, w.heap.payload? h = some (.native d s) →
    d.lengthHint = some slot → ∃ n w₁, runHintSlot slot h env w.hushed = .done n w₁) →
      ∃ n w', Causeway.lengthHint h env w = .done n w'

/-- The probes come back, and leave the indicator, the objects that there are, their counts and
their payloads as they were. -/
structure KeepsHeap (env : Env U) (w : World U) (h : Handle) : Prop where
  isIterable : ∃ b w', isIterable h env w = .done b w' ∧ w'.pending = w.pending ∧
    w'.heap.InOrder ∧ ∀ k, w'.heap.entryAt? k = w.heap.entryAt? k
  lengthHint : ∃ n w', lengthHint h env w = .done n w' ∧ w'.pending = w.pending ∧
    w'.heap = w.heap
  make : ∀ f w', View.make h env w = .done (.error f) w' →
    w'.pending = w.pending ∧ ∀ k, w'.heap.entryAt? k = w.heap.entryAt? k

theorem keepsIndicator (env : Env U) (w : World U) (h : Handle) : KeepsIndicator env w h where
  isIterable _ _ run := isIterable_pending run
  lengthHint _ _ run := lengthHint_pending run
  make _ _ run := isIterable_pending (make_refused_run run)
  isIterable_returns := by
    intro it w₁ w₂ hiter hrelease
    have hsettles : (Causeway.isIterable h env w).Settles False
        fun _ w' => w'.pending = w.pending :=
      isIterable_settles (by rw [hiter]; dsimp only [Outcome.Settles]; rw [hrelease]; trivial)
    obtain ⟨b, w', hrun, -⟩ := hsettles.exists_done
    exact ⟨b, w', hrun⟩
  lengthHint_returns := by
    intro hhint
    have hsettles : (Causeway.lengthHint h env w).Settles False
        fun _ w' => w'.pending = w.pending :=
      lengthHint_settles fun d s slot hnative hslot => by
        obtain ⟨n, w₁, hrun⟩ := hhint d s slot hnative hslot
        rw [hrun]
        trivial
    obtain ⟨n, w', hrun, -⟩ := hsettles.exists_done
    exact ⟨n, w', hrun⟩

theorem keepsHeap (deep : env.Deep 2) (ho : w.heap.InOrder)
    (stock : ∀ p, w.heap.payload? h = some p → p.Stock)
    (alive : ∀ p, w.heap.payload? h = some p → ∀ u ∈ p.units, w.heap.isAlive u = true) :
    KeepsHeap env w h where
  isIterable := isIterable_keeps deep ho stock alive
  lengthHint := by
    obtain ⟨n, w', hrun, hn⟩ := lengthHint_noted stock env
    exact ⟨n, w', hrun, hn.kept.1, hn.kept.2⟩
  make _ _ run := make_refused_keeps deep ho stock alive run

/-- Probing leaves no trace. Of any object whatsoever the indicator is what it was before; of
builtin objects, native adapters and native collections everything else is as well, with user code
that makes what it likes of the objects these hold.

Over such objects a pass that has room made for the length of the iterable does not begin if there
is no such room, and then nothing has changed. Otherwise it takes the same course as a pass that
does not ask: among other objects for every way of converting elements that, like the user code
behind those objects, does not look at the setting, and when there are no others for every native
type. Vectors inside the elements have room made for them as well; that there is none for one of
these is the only other way in which the passes may part. -/
theorem probing_leaves_no_trace (observe : Log.Event → U → U) (user : Env U → Hooks U) (n : Nat)
    (w : World U) (h : Handle) :
    KeepsIndicator (.tie observe user n) w h ∧
    ((∀ p, w.heap.payload? h = some p → p.Stock) →
      (2 ≤ n → w.heap.InOrder →
        (∀ p, w.heap.payload? h = some p → ∀ u ∈ p.units, w.heap.isAlive u = true) →
        KeepsHeap (.tie observe user n) w h) ∧
      (∀ {α : Type} (p : Intake U α),
        View.Overstates p h (.tie observe user n) (w.reserving true) →
        ∃ w', View.collectSized p h (.tie observe user n) (w.reserving true) =
            .fault .capacityOverflow w' ∧ w'.pending = w.pending ∧ w'.heap = w.heap) ∧
      ∀ R : U → U → Prop, Deaf R observe → R w.client w.client →
        ((∀ k p, w.heap.payload? k = some p → p.Plain) → ∀ t,
          ¬View.Overstates (builtinIntake t) h (.tie observe user n) (w.reserving true) →
          (View.collectSized (builtinIntake t) h (.tie observe user n)
            (w.reserving true)).Coincides R
          (View.collectSized (builtinIntake t) h (.tie observe user n) (w.reserving false)) ∨
          ¬t.Flat ∧ (View.collectSized (builtinIntake t) h (.tie observe user n)
            (w.reserving true)).Overflows) ∧
        (Blind R user → ∀ {α : Type} (p : Intake U α),
          (hintBond R True).IntakeAgrees (.tie observe user n) (.tie observe user n) False p →
          ¬View.Overstates p h (.tie observe user n) (w.reserving true) →
          (View.collectSized p h (.tie observe user n) (w.reserving true)).Coincides R
            (View.collectSized p h (.tie observe user n) (w.reserving false)))) := by
  refine ⟨keepsIndicator _ w h, fun stock => ⟨fun hn ho alive => ?_, fun p full => ?_,
    fun R hdeaf hR => ⟨?_, ?_⟩⟩⟩
  · exact keepsHeap ((tie_deep observe user n).of_le hn) ho stock alive
  · obtain ⟨w', hrun, hn⟩ := collectSized_full (w := w.reserving true) stock full
    exact ⟨w', hrun, hn.kept⟩
  · exact fun plain t => collectSized_plain hdeaf user n plain hR t h
  · exact fun hblind _ p hp room => (collectSized_coincides hdeaf (fun _ => hblind) n hp
      (fun _ _ _ => .inl trivial) hR stock room).resolve_right fun hshort => hshort.1

def mine : Payload :=
  .native .collection (some (.collection ⟨.i64, none, .listed [(7 : Int64), (8 : Int64)] true⟩))

def boundless : Payload :=
  .native .adapter (some (.adapter (.start (t := .i64) (.span 0 (2 ^ 63 - 1)) none)))

def mineWorld (pending : Option Raised) : World (List Log.Event) where
  heap := ((Heap.empty.insert mine).2.insert boundless).2
  pending := pending
  settings := {}
  client := []

theorem mine_plain : mine.Plain where
  stock := by
    rintro d s ⟨⟩
    exact .inr rfl
  state := by
    rintro d s ⟨⟩
    rfl

theorem boundless_plain : boundless.Plain where
  stock := by
    rintro d s ⟨⟩
    exact .inl rfl
  state := by
    rintro d s ⟨⟩
    rfl

theorem mineWorld_plain {pending : Option Raised} (k : Handle) (p : Payload)
    (hp : (mineWorld pending).heap.payload? k = some p) : p.Plain := by
  have hfits : (hintBond (U := Unit) Eq False).FitsHeap (mineWorld pending).heap :=
    (Bond.FitsHeap.empty.insert (.inr mine_plain)).insert (.inr boundless_plain)
  exact (hfits k p hp).resolve_left id

theorem exhausted_blind : Blind (U := List Log.Event) (fun _ _ => True) fun _ => .exhausted :=
  fun _ => ⟨fun _ _ _ _ _ _ _ => trivial, fun _ _ _ _ _ _ => trivial, fun _ _ _ _ _ _ => trivial,
    fun _ _ _ _ _ _ => trivial, fun _ _ _ _ _ _ _ => trivial⟩

/-- The environment in which no user code comes to an end, with a log of the events. -/
def mineEnv : Env (List Log.Event) := .tie List.cons (fun _ => .exhausted) 3

/-- There is no room for as many strings, which nobody would notice who does not ask: already the
first integer is not a string. -/
theorem collectSized_boundless_differs :
    (∀ k p, (mineWorld none).heap.payload? k = some p → p.Plain) ∧
    (∃ w', View.collectSized (builtinIntake .text) ⟨1, 0⟩ mineEnv
      ((mineWorld none).reserving true) = .fault .capacityOverflow w') ∧
    (View.collectSized (builtinIntake .text) ⟨1, 0⟩ mineEnv
      ((mineWorld none).reserving false)).answer? = some (.error (.of (.elementConversion 0))) := by
  have full : View.Overstates (builtinIntake .text) ⟨1, 0⟩ mineEnv
      ((mineWorld none).reserving true) := ⟨rfl, 2 ^ 63 - 1, _, rfl, by decide⟩
  obtain ⟨_, w', -, hrun⟩ := View.collectSized_fault full
  exact ⟨mineWorld_plain, ⟨w', hrun⟩, rfl⟩

/-- The collection is probed with the error pending, and passes over it that do or do not ask for
its length go the same way, whatever is made of its elements; only the log tells them apart. Of the
integers the passes make strings only where nobody asks how many there are. -/
theorem probing_leaves_no_trace_mine :
    let w := mineWorld (some ⟨.valueError, "mine"⟩)
    KeepsIndicator mineEnv w ⟨0, 0⟩ ∧ KeepsHeap mineEnv w ⟨0, 0⟩ ∧
    (View.collectSized (builtinIntake .i64) ⟨0, 0⟩ mineEnv (w.reserving true)).Coincides
      (fun _ _ => True)
      (View.collectSized (builtinIntake .i64) ⟨0, 0⟩ mineEnv (w.reserving false)) ∧
    (View.collectSized (builtinIntake .object) ⟨0, 0⟩ mineEnv (w.reserving true)).Coincides
      (fun _ _ => True)
      (View.collectSized (builtinIntake .object) ⟨0, 0⟩ mineEnv (w.reserving false)) ∧
    ∃ w', View.collectSized (builtinIntake .text) ⟨1, 0⟩ mineEnv (w.reserving true) =
      .fault .capacityOverflow w' ∧ w'.pending = w.pending ∧ w'.heap = w.heap := by
  intro w
  have hstocked (h : Handle) (p : Payload) (hp : w.heap.payload? h = some p) : p.Stock :=
    (mineWorld_plain _ p hp).stock
  obtain ⟨hindicator, hstock⟩ := probing_leaves_no_trace List.cons (fun _ => .exhausted) 3 w ⟨0, 0⟩
  obtain ⟨hkeeps, -, hpasses⟩ := hstock (hstocked _)
  have hfound : w.heap.payload? ⟨0, 0⟩ = some mine := rfl
  have hdeaf : Deaf (U := List Log.Event) (fun _ _ => True) List.cons :=
    fun _ _ _ _ => ⟨trivial, trivial⟩
  obtain ⟨hplain, hblind⟩ := hpasses (fun _ _ => True) hdeaf trivial
  have hj : (hintBond (fun _ _ => True) True).Joins mineEnv mineEnv :=
    hintBond_joins hdeaf (fun _ => exhausted_blind) 3
  have room {α : Type} (p : Intake (List Log.Event) α) :
      ¬View.Overstates p ⟨0, 0⟩ mineEnv (w.reserving true) := by
    -- a collection does not say how long it is
    rintro ⟨-, count, w', hhint, -⟩
    cases hhint
  obtain ⟨-, hboundless⟩ := probing_leaves_no_trace List.cons (fun _ => .exhausted) 3 w ⟨1, 0⟩
  obtain ⟨-, hfull, -⟩ := hboundless (hstocked _)
  refine ⟨hindicator, hkeeps (by decide)
      (Heap.insert_inOrder (Heap.insert_inOrder Heap.empty_inOrder _) _) fun p hp => ?_,
    (hplain mineWorld_plain .i64 (room _)).resolve_right fun h => h.1 trivial,
    hblind exhausted_blind (builtinIntake .object) (Bond.intakeAgrees_of_no_deleter hj _ _
      fun h => (Bond.shared_agrees hj h trivial).anyhow.unless) (room _),
    hfull (builtinIntake .text) ⟨rfl, 2 ^ 63 - 1, _, rfl, by decide⟩⟩
  cases hfound.symm.trans hp
  nofun

end Causeway
