import Causeway.Proofs.Footprints
/-!
# The ledger of a view's values

A view converts elements, and every value that comes of it has to go somewhere: to whoever asks for
the next one, or to the deleter. To say so a book is kept beside the client. The converter puts down
what it makes and of which element, the deleter what it is given, and every release what is given
back; nothing that runs sees the book. Then the book says all that became of the values.
-/
set_option autoImplicit false

namespace Causeway

open Act

variable {U α β σ : Type}

inductive Fate (α : Type) where
  | converted (element : Handle) (v : α)
  /-- The converter gave a value and left an error pending. -/
  | rejected (element : Handle) (v : α)
  | released (h : Handle)
  | deleted (v : α)
deriving DecidableEq

namespace Fate

def converted? : Fate α → Option α
  | converted _ v | rejected _ v => some v
  | _ => none

def deleted? : Fate α → Option α
  | deleted v => some v
  | _ => none

def conversion (element : Handle) (v : α) : Option Raised → Fate α
  | none => .converted element v
  | some _ => .rejected element v

end Fate

def conversions (book : List (Fate α)) : List α := book.filterMap Fate.converted?

def deletions (book : List (Fate α)) : List α := book.filterMap Fate.deleted?

section

variable (book book' : List (Fate α)) (e : Handle) (v : α) (gone : List Handle)

@[simp] theorem conversions_nil : conversions ([] : List (Fate α)) = [] := rfl

@[simp] theorem deletions_nil : deletions ([] : List (Fate α)) = [] := rfl

@[simp] theorem conversions_append :
    conversions (book ++ book') = conversions book ++ conversions book' := List.filterMap_append

@[simp] theorem deletions_append :
    deletions (book ++ book') = deletions book ++ deletions book' := List.filterMap_append

@[simp] theorem conversions_converted :
    conversions (.converted e v :: book) = v :: conversions book := rfl

@[simp] theorem conversions_rejected :
    conversions (.rejected e v :: book) = v :: conversions book := rfl

@[simp] theorem conversions_released : conversions (.released e :: book) = conversions book := rfl

@[simp] theorem conversions_deleted : conversions (.deleted v :: book) = conversions book := rfl

@[simp] theorem deletions_converted : deletions (.converted e v :: book) = deletions book := rfl

@[simp] theorem deletions_rejected : deletions (.rejected e v :: book) = deletions book := rfl

@[simp] theorem deletions_released : deletions (.released e :: book) = deletions book := rfl

@[simp] theorem deletions_deleted : deletions (.deleted v :: book) = v :: deletions book := rfl

@[simp] theorem conversions_map_released :
    conversions (gone.map (.released : Handle → Fate α)) = [] := by
  simp [conversions, Fate.converted?]

@[simp] theorem deletions_map_released :
    deletions (gone.map (.released : Handle → Fate α)) = [] := by
  simp [deletions, Fate.deleted?]

end

def World.booked (w : World U) (book : List (Fate α)) : World (U × List (Fate α)) :=
  ⟨w.heap, w.pending, w.settings, (w.client, book)⟩

def World.unbooked (w : World (U × List (Fate α))) : World U :=
  ⟨w.heap, w.pending, w.settings, w.client.1⟩

def World.book (w : World (U × List (Fate α))) : List (Fate α) := w.client.2

/-- Runs what does not see the book, and puts down what comes of it. -/
def noting (entries : β → World U → List (Fate α)) (run : World U → Outcome U β)
    (w : World (U × List (Fate α))) : Outcome (U × List (Fate α)) β :=
  match run w.unbooked with
  | .done b w' => .done b (w'.booked (w.book ++ entries b w'))
  | .fault c w' => .fault c (w'.booked w.book)
  | .unfinished => .unfinished

def Env.booking (env : Env U) : Env (U × List (Fate α)) where
  budget := env.budget
  release h := noting (fun _ _ => [.released h]) (env.release h)
  observe e c := (env.observe e c.1, c.2)
  hooks :=
    { call := fun code hs => noting (fun _ _ => []) (env.hooks.call code hs)
      slot := fun code h => noting (fun _ _ => []) (env.hooks.slot code h)
      measure := fun code h => noting (fun _ _ => []) (env.hooks.measure code h)
      destroy := fun code hs => noting (fun _ _ => []) (env.hooks.destroy code hs)
      toPeer := fun code t v => noting (fun _ _ => []) (env.hooks.toPeer code t v) }

def Intake.booking (env : Env U) (p : Intake U α) : Intake (U × List (Fate α)) α where
  convert h _ :=
    noting (fun out w => (out.map fun v => .conversion h v w.pending).toList) (p.convert h env)
  units := p.units
  width := p.width
  deleter := p.deleter.map fun delete v _ => noting (fun _ _ => [.deleted v]) (delete v env)

theorem noting_settles (entries : β → World U → List (Fate α)) (run : World U → Outcome U β)
    (w : World (U × List (Fate α))) :
    (noting entries run w).Settles True fun b w' => w'.book = w.book ++ entries b w'.unbooked := by
  unfold noting
  cases run w.unbooked with
  | done b w' => exact rfl
  | fault c w' => trivial
  | unfinished => trivial

/-- Objects were given back, and nothing else was put down. -/
def OnlyReleased (c c' : U × List (Fate α)) : Prop :=
  ∃ gone : List Handle, c'.2 = c.2 ++ gone.map .released

theorem OnlyReleased.book {w w' : World (U × List (Fate α))} (h : OnlyReleased w.client w'.client) :
    ∃ gone : List Handle, w'.book = w.book ++ gone.map .released := h

theorem Env.booking_moves (env : Env U) :
    (env.booking : Env (U × List (Fate α))).Moves OnlyReleased where
  refl := fun _ => ⟨[], by simp⟩
  trans := fun _ _ _ ⟨gone, h⟩ ⟨gone', h'⟩ =>
    ⟨gone ++ gone', by rw [h', h, List.append_assoc, List.map_append]⟩
  observe := fun _ _ => ⟨[], by simp [booking]⟩
  release := fun h _ => (noting_settles _ _ _).mono fun _ _ _ hbook => ⟨[h], hbook⟩
  call := fun _ _ _ => (noting_settles _ _ _).mono fun _ _ _ hbook => ⟨[], hbook⟩
  slot := fun _ _ _ => (noting_settles _ _ _).mono fun _ _ _ hbook => ⟨[], hbook⟩
  measure := fun _ _ _ => (noting_settles _ _ _).mono fun _ _ _ hbook => ⟨[], hbook⟩
  destroy := fun _ _ _ => (noting_settles _ _ _).mono fun _ _ _ hbook => ⟨[], hbook⟩
  toPeer := fun _ _ _ _ => (noting_settles _ _ _).mono fun _ _ _ hbook => ⟨[], hbook⟩

/-- What giving objects back does not change about the book is so afterwards. -/
theorem Act.Moves.kept {env : Env U} {act : Act (U × List (Fate α)) β}
    {I : List (Fate α) → Prop} {w : World (U × List (Fate α))}
    (hact : act.Moves OnlyReleased env.booking)
    (hI : ∀ gone : List Handle, I (w.book ++ gone.map .released)) :
    (act env.booking w).Settles True fun _ w' => I w'.book :=
  (hact w).mono fun _ w' _ hmoved => by
    obtain ⟨gone, hbook⟩ := hmoved.book
    rw [hbook]
    exact hI gone

section

variable {env : Env U} {p : Intake U α} {delete : α → Act U Unit}

theorem release_booked (h : Handle) (env : Env U) (w : World (U × List (Fate α))) :
    (release h env.booking w).Settles True fun _ w' => w'.book = w.book ++ [.released h] :=
  noting_settles _ _ w

theorem convert_booked (h : Handle) (env : Env U) (p : Intake U α)
    (w : World (U × List (Fate α))) :
    ((p.booking env).convert h env.booking w).Settles True fun out w' =>
      w'.book = w.book ++ (out.map fun v => .conversion h v w'.pending).toList :=
  noting_settles _ _ w

theorem discard_booked (deletes : p.deleter = some delete) (v : α) (env : Env U)
    (w : World (U × List (Fate α))) :
    ((p.booking env).discard v env.booking w).Settles True fun _ w' =>
      w'.book = w.book ++ [.deleted v] := by
  simp only [Intake.discard, Intake.booking, deletes]
  exact noting_settles _ _ w

end

/-- Where a fetch leaves the cursor, and what it puts down. Objects may be given back all along. -/
inductive Fetches (c : Cursor α) (book : List (Fate α)) :
    Cursor α × Option Failure → List (Fate α) → Prop where
  | ended (gone : List Handle) {failure : Option Failure}
      (calm : failure = none ∨ failure = some .alreadyRaised) :
      Fetches c book ({ c with fused := true }, failure) (book ++ gone.map .released)
  | cached (gone : List Handle) (element : Handle) (v : α) :
      Fetches c book ({ c with current := some (element, v) }, none)
        (book ++ gone.map .released ++ [.converted element v])
  | unconverted (gone : List Handle) :
      Fetches c book ({ c with fused := true }, some (.of (.elementConversion c.position)))
        (book ++ gone.map .released)
  | rejected (gone gone' : List Handle) (element : Handle) (v : α) :
      Fetches c book ({ c with fused := true }, some (.of (.elementConversion c.position)))
        (book ++ gone.map .released ++ [.rejected element v] ++ [.deleted v] ++
          gone'.map .released)

namespace Cursor

variable {env : Env U} {p : Intake U α} {delete : α → Act U Unit}

/-- What goes back and is said once an element has not become a value. -/
theorem giveUp_settles (element : Handle) (c : Cursor α) (w : World (U × List (Fate α))) :
    ((do
      release element
      Indicator.clear
      Act.emit (.conversionFailed .element c.position)
      pure ({ c with fused := true }, some (.of (.elementConversion c.position))) :
        Act (U × List (Fate α)) (Cursor α × Option Failure)) env.booking w).Settles True
      fun r w' =>
        r = ({ c with fused := true }, some (.of (.elementConversion c.position))) ∧
        OnlyReleased w.client w'.client := by
  have hmoves := env.booking_moves (α := α)
  refine (Act.Moves.release hmoves element w).bind fun _ w₁ _ h₁ => ?_
  refine (Act.Moves.library hmoves clear_composed w₁).bind fun _ w₂ _ h₂ => ?_
  refine (Act.Moves.emit hmoves _ w₂).bind fun _ w₃ _ h₃ => ⟨rfl, ?_⟩
  exact hmoves.trans _ _ _ h₁ (hmoves.trans _ _ _ h₂ h₃)

theorem fetch_fetches (deletes : p.deleter = some delete) (c : Cursor α)
    (w : World (U × List (Fate α))) :
    (fetch (p.booking env) c env.booking w).Settles True fun r w' =>
      Fetches c w.book r w'.book := by
  have hmoves := env.booking_moves (α := α)
  have hended {failure : Option Failure} {w' : World (U × List (Fate α))}
      (calm : failure = none ∨ failure = some .alreadyRaised)
      (h : OnlyReleased w.client w'.client) :
      Fetches c w.book ({ c with fused := true }, failure) w'.book := by
    obtain ⟨gone, hbook⟩ := h.book
    rw [hbook]
    exact .ended gone calm
  unfold fetch
  split
  · rename_i fused
    have hsame : c = { c with fused := true } := by rw [← fused]
    have hidle := hended (.inl rfl) (hmoves.refl w.client)
    rwa [← hsame] at hidle
  rw [bind_run]
  simp only [Indicator.isSet]
  split
  · exact hended (.inr rfl) (hmoves.refl w.client)
  refine (Act.Moves.library hmoves (iterNext_composed c.iterator) w).bind fun found w₁ _ h₁ => ?_
  cases found with
  | none =>
    dsimp only
    rw [bind_run]
    simp only [Indicator.isSet]
    split
    · exact hended (.inr rfl) h₁
    · exact (Act.Moves.emit hmoves _ w₁).bind fun _ w₂ _ h₂ =>
        hended (.inl rfl) (hmoves.trans _ _ _ h₁ h₂)
  | some element =>
    obtain ⟨gone, h₁⟩ := h₁.book
    refine (holding_settles _ (convert_booked element env p w₁)).bind fun out w₂ _ h₂ => ?_
    obtain ⟨-, h₂⟩ := h₂
    rw [h₁] at h₂
    rw [bind_run]
    simp only [Indicator.isSet]
    cases out with
    | none =>
      simp only [Option.map_none, Option.toList_none, List.append_nil] at h₂
      have hnothing : ((pure () : Act (U × List (Fate α)) Unit) env.booking w₂).Settles True
          fun _ w' => w'.book = w₂.book := rfl
      refine (holding_settles [element] hnothing).bind fun _ w₃ _ h₃ => ?_
      refine (giveUp_settles element c w₃).mono fun r w₄ _ h₄ => ?_
      obtain ⟨rfl, h₄⟩ := h₄
      obtain ⟨gone', h₄⟩ := h₄.book
      rw [h₄, h₃.2, h₂, List.append_assoc, ← List.map_append]
      exact .unconverted _
    | some v =>
      cases hpending : w₂.pending with
      | none =>
        rw [hpending] at h₂
        change Fetches c w.book _ w₂.book
        rw [h₂]
        exact .cached gone element v
      | some e =>
        rw [hpending] at h₂
        refine (holding_settles _ (discard_booked deletes v env w₂)).bind fun _ w₃ _ h₃ => ?_
        refine (giveUp_settles element c w₃).mono fun r w₄ _ h₄ => ?_
        obtain ⟨rfl, h₄⟩ := h₄
        obtain ⟨gone', h₄⟩ := h₄.book
        rw [h₄, h₃.2, h₂]
        exact .rejected gone gone' element v

/-- A cursor that caches nothing only gives its object back. -/
theorem drop_moves {c : Cursor α} (empty : c.current = none) :
    (c.drop (p.booking env)).Moves OnlyReleased env.booking := by
  have hmoves := env.booking_moves (α := α)
  have hdiscard : (discardCurrent (p.booking env) c).Moves OnlyReleased env.booking := by
    unfold discardCurrent
    rw [empty]
    exact .bind hmoves (.pure hmoves _) fun _ => .pure hmoves _
  exact .bind hmoves (.onFault hdiscard) fun _ => .release hmoves _

end Cursor

inductive Begins (book : List (Fate α)) : Except Failure (Cursor α) → List (Fate α) → Prop where
  | refused (gone : List Handle) {f : Failure} (early : ∀ k, f ≠ .of (.elementConversion k)) :
      Begins book (.error f) (book ++ gone.map .released)
  | begun (iterator : Handle) (gone : List Handle) {c : Cursor α} {book' : List (Fate α)}
      (h : Fetches (.start iterator) (book ++ gone.map .released) (c, none) book') :
      Begins book (.ok c) book'
  | failed (iterator : Handle) (gone gone' : List Handle) {c : Cursor α} {f : Failure}
      {book' : List (Fate α)}
      (h : Fetches (.start iterator) (book ++ gone.map .released) (c, some f) book') :
      Begins book (.error f) (book' ++ gone'.map .released)

def Cursor.given : Option (Except Failure α) → List α
  | some (.ok v) => [v]
  | _ => []

inductive Hands (c : Cursor α) (book : List (Fate α)) :
    Cursor α × Option (Except Failure α) → List (Fate α) → Prop where
  | failure {f : Failure} (met : c.pending = some f) :
      Hands c book ({ c with pending := none }, some (.error f)) book
  | nothing (quiet : c.pending = none) (empty : c.current = none) : Hands c book (c, none) book
  | value {element : Handle} {v : α} {r : Cursor α × Option Failure} {book' : List (Fate α)}
      (quiet : c.pending = none) (cached : c.current = some (element, v))
      (h : Fetches { c with current := none, position := c.position + 1 }
        (book ++ [.released element]) r book') :
      Hands c book ({ r.1 with pending := r.2 }, some (.ok v)) book'

section

variable {book book' : List (Fate α)} {c c' : Cursor α} {r : Cursor α × Option Failure}

theorem Fetches.pending (h : Fetches c book r book') : r.1.pending = c.pending := by
  cases h <;> rfl

theorem Fetches.current {f : Failure} (h : Fetches c book (c', some f) book') :
    c'.current = c.current := by
  cases h <;> rfl

end

section

variable {env : Env U} {p : Intake U α} {delete : α → Act U Unit}
  (deletes : p.deleter = some delete)

include deletes

theorem Cursor.next_hands (c : Cursor α) (w : World (U × List (Fate α))) :
    (c.next (p.booking env) env.booking w).Settles True fun r w' => Hands c w.book r w'.book := by
  obtain ⟨iterator, current, position, fused, pending⟩ := c
  cases pending with
  | some f => exact .failure rfl
  | none =>
    cases current with
    | none => exact .nothing rfl rfl
    | some cached =>
      obtain ⟨element, v⟩ := cached
      refine (holding_settles _ (release_booked element env w)).bind fun _ w₁ _ h₁ => ?_
      refine (holding_settles _ (fetch_fetches deletes _ w₁)).bind fun r w₂ _ h₂ => ?_
      obtain ⟨-, h₂⟩ := h₂
      rw [h₁.2] at h₂
      exact .value rfl rfl h₂

theorem View.begin_begins (iterable : Handle) (w : World (U × List (Fate α))) :
    (View.begin (p.booking env) iterable env.booking w).Settles True fun r w' =>
      Begins w.book r w'.book := by
  have hmoves := env.booking_moves (α := α)
  refine (Act.Moves.library hmoves (getIter_composed iterable) w).bind fun it w₁ _ h₁ => ?_
  cases it with
  | none =>
    obtain ⟨gone, hbook⟩ := h₁.book
    have hrefused {f : Failure} (early : ∀ k, f ≠ .of (.elementConversion k)) :
        Begins w.book (.error f) w₁.book := by
      rw [hbook]
      exact .refused gone early
    dsimp only
    rw [bind_run]
    simp only [Indicator.isSet]
    split
    · exact hrefused fun k hk => by cases hk
    · exact hrefused fun k hk => by cases hk
  | some iterator =>
    refine (Act.Moves.reads hmoves (typeNameOf_reads iterable) w₁).bind fun name w₂ _ h₂ => ?_
    refine (Act.Moves.emit hmoves _ w₂).bind fun _ w₃ _ h₃ => ?_
    obtain ⟨gone, hbook⟩ := OnlyReleased.book (hmoves.trans _ _ _ h₁ (hmoves.trans _ _ _ h₂ h₃))
    refine (holding_settles _ (Cursor.fetch_fetches deletes (.start iterator) w₃)).bind
      fun r w₄ _ h₄ => ?_
    obtain ⟨-, h₄⟩ := h₄
    rw [hbook] at h₄
    obtain ⟨c, failure⟩ := r
    cases failure with
    | none => exact .begun iterator gone h₄
    | some f =>
      refine (Cursor.drop_moves h₄.current w₄).bind fun _ w₅ _ h₅ => ?_
      obtain ⟨gone', hbook'⟩ := h₅.book
      change Begins w.book (.error f) w₅.book
      rw [hbook']
      exact .failed iterator gone gone' h₄

end

/-- What has to stand in front of a deletion: the element of the value, which was converted before,
went back, or the value has just been turned down. -/
def Due (before : List (Fate α)) (v : α) : Prop :=
  (∃ e earlier, before = earlier ++ [.released e] ∧ .converted e v ∈ earlier) ∨
  ∃ e earlier, before = earlier ++ [.rejected e v]

def Orderly (book : List (Fate α)) : Prop :=
  ∀ before v after, book = before ++ .deleted v :: after → Due before v

namespace Orderly

variable {book : List (Fate α)}

theorem nil : Orderly ([] : List (Fate α)) := by
  intro before v after h
  simp at h

theorem snoc {entry : Fate α} (h : Orderly book) (due : ∀ v, entry = .deleted v → Due book v) :
    Orderly (book ++ [entry]) := by
  intro before v after hsplit
  obtain rfl | ⟨after, last, rfl⟩ := List.eq_nil_or_concat after
  · obtain ⟨rfl, hentry⟩ := List.append_inj' hsplit rfl
    exact due v (List.singleton_inj.1 hentry)
  · rw [List.concat_eq_append, ← List.cons_append, ← List.append_assoc] at hsplit
    exact h before v after (List.append_inj' hsplit rfl).1

theorem released (h : Orderly book) (gone : List Handle) :
    Orderly (book ++ gone.map .released) := by
  induction gone generalizing book with
  | nil => rwa [List.map_nil, List.append_nil]
  | cons e gone ih =>
    rw [List.map_cons, ← List.singleton_append, ← List.append_assoc]
    exact ih (h.snoc nofun)

end Orderly

/-- Where the values of a view are: the live cursors' cached ones, those handed out, and, in the
book, those deleted. -/
structure Accounts (live : Multiset (Cursor α)) (handed : List α) (book : List (Fate α)) :
    Prop where
  balanced : (↑(conversions book) : Multiset α) =
    ↑handed + ↑(deletions book) + live.filterMap Cursor.get?
  cached : ∀ c ∈ live, ∀ e v, c.current = some (e, v) → .converted e v ∈ book
  orderly : Orderly book

theorem filterMap_get?_cons (c : Cursor α) (live : Multiset (Cursor α)) :
    (c ::ₘ live).filterMap Cursor.get? = ↑c.get?.toList + live.filterMap Cursor.get? := by
  cases hc : c.get? with
  | none =>
    rw [Multiset.filterMap_cons_none c live hc, Option.toList_none, Multiset.coe_nil, zero_add]
  | some v =>
    rw [Multiset.filterMap_cons_some Cursor.get? c live hc, Option.toList_some,
      Multiset.coe_singleton, Multiset.singleton_add]

namespace Accounts

variable {live : Multiset (Cursor α)} {handed : List α} {book book' : List (Fate α)}
  {c c' : Cursor α} {e : Handle} {v : α}

theorem nil : Accounts (0 : Multiset (Cursor α)) [] [] where
  balanced := by simp
  cached := fun c hc => absurd hc (Multiset.notMem_zero c)
  orderly := .nil

theorem released (h : Accounts live handed book) (gone : List Handle) :
    Accounts live handed (book ++ gone.map .released) where
  balanced := by simpa using h.balanced
  cached := fun c hc e v hcur => List.mem_append_left _ (h.cached c hc e v hcur)
  orderly := h.orderly.released gone

theorem cons_iff (hc : c.current = none) :
    Accounts (c ::ₘ live) handed book ↔ Accounts live handed book := by
  have hget : c.get?.toList = [] := by rw [Cursor.get?, hc]; rfl
  constructor
  · intro h
    refine ⟨?_, fun d hd => h.cached d (Multiset.mem_cons_of_mem hd), h.orderly⟩
    rw [h.balanced, filterMap_get?_cons, hget, Multiset.coe_nil, zero_add]
  · intro h
    refine ⟨?_, fun d hd e v hcur => ?_, h.orderly⟩
    · rw [h.balanced, filterMap_get?_cons, hget, Multiset.coe_nil, zero_add]
    · obtain rfl | hd := Multiset.mem_cons.1 hd
      · exact nomatch hc.symm.trans hcur
      · exact h.cached d hd e v hcur

theorem moved (h : Accounts (c ::ₘ live) handed book) (same : c'.current = c.current) :
    Accounts (c' ::ₘ live) handed book where
  balanced := by
    have hget : c'.get? = c.get? := by rw [Cursor.get?, Cursor.get?, same]
    rw [h.balanced, filterMap_get?_cons, filterMap_get?_cons, hget]
  cached := fun d hd e v hcur => by
    obtain rfl | hd := Multiset.mem_cons.1 hd
    · exact h.cached c (Multiset.mem_cons_self _ _) e v (same.symm.trans hcur)
    · exact h.cached d (Multiset.mem_cons_of_mem hd) e v hcur
  orderly := h.orderly

theorem made (h : Accounts live handed book) (hc : c.current = some (e, v)) :
    Accounts (c ::ₘ live) handed (book ++ [.converted e v]) where
  balanced := by
    have hget : c.get?.toList = [v] := by rw [Cursor.get?, hc]; rfl
    simp only [filterMap_get?_cons, hget, conversions_append, deletions_append,
      conversions_converted, deletions_converted, conversions_nil, deletions_nil, List.append_nil]
    rw [← Multiset.coe_add, h.balanced, ← add_assoc, add_right_comm]
  cached := fun d hd e' v' hcur => by
    obtain rfl | hd := Multiset.mem_cons.1 hd
    · obtain ⟨rfl, rfl⟩ := Prod.mk.inj (Option.some.inj (hc.symm.trans hcur))
      exact List.mem_append_right _ (List.mem_singleton_self _)
    · exact List.mem_append_left _ (h.cached d hd e' v' hcur)
  orderly := h.orderly.snoc nofun

theorem rejected (h : Accounts live handed book) (e : Handle) (v : α) :
    Accounts live handed (book ++ [.rejected e v] ++ [.deleted v]) where
  balanced := by
    simp only [conversions_append, deletions_append, conversions_rejected, conversions_deleted,
      deletions_rejected, deletions_deleted, conversions_nil, deletions_nil, List.append_nil]
    rw [← Multiset.coe_add, ← Multiset.coe_add, h.balanced]
    abel
  cached := fun d hd e' v' hcur =>
    List.mem_append_left _ (List.mem_append_left _ (h.cached d hd e' v' hcur))
  orderly := by
    have hmade : Orderly (book ++ [.rejected e v]) := h.orderly.snoc nofun
    refine hmade.snoc fun v' hv => ?_
    obtain rfl : v = v' := Fate.deleted.inj hv
    exact .inr ⟨e, book, rfl⟩

theorem of_cached (h : Accounts (c ::ₘ live) handed book) (hc : c.current = some (e, v)) :
    (↑(conversions book) : Multiset α) =
      ↑handed + ↑(deletions book) + {v} + live.filterMap Cursor.get? := by
  have hget : c.get?.toList = [v] := by rw [Cursor.get?, hc]; rfl
  rw [h.balanced, filterMap_get?_cons, hget, Multiset.coe_singleton]
  abel

/-- A cached value is given up: its element goes back, then it is deleted. -/
theorem discarded (h : Accounts (c ::ₘ live) handed book) (hc : c.current = some (e, v)) :
    Accounts live handed (book ++ [.released e] ++ [.deleted v]) where
  balanced := by
    simp only [conversions_append, deletions_append, conversions_released, conversions_deleted,
      deletions_released, deletions_deleted, conversions_nil, deletions_nil, List.append_nil]
    rw [h.of_cached hc, ← Multiset.coe_add, Multiset.coe_singleton, ← add_assoc]
  cached := fun d hd e' v' hcur => List.mem_append_left _ (List.mem_append_left _
    (h.cached d (Multiset.mem_cons_of_mem hd) e' v' hcur))
  orderly := by
    have hback : Orderly (book ++ [.released e]) := h.orderly.snoc nofun
    refine hback.snoc fun v' hv => ?_
    obtain rfl : v = v' := Fate.deleted.inj hv
    exact .inl ⟨e, book, rfl, h.cached c (Multiset.mem_cons_self _ _) e v hc⟩

theorem given (h : Accounts (c ::ₘ live) handed book) (hc : c.current = some (e, v)) :
    Accounts live (handed ++ [v]) book where
  balanced := by
    rw [h.of_cached hc, ← Multiset.coe_add, Multiset.coe_singleton]
    abel
  cached := fun d hd => h.cached d (Multiset.mem_cons_of_mem hd)
  orderly := h.orderly

theorem fetched {r : Cursor α × Option Failure} (h : Accounts live handed book)
    (empty : c.current = none) (hr : Fetches c book r book') :
    Accounts (r.1 ::ₘ live) handed book' := by
  have hidle {book' : List (Fate α)} (h' : Accounts live handed book') :
      Accounts ({ c with fused := true } ::ₘ live) handed book' :=
    ((cons_iff empty).2 h').moved rfl
  cases hr with
  | ended gone _ => exact hidle (h.released gone)
  | cached gone e v => exact (h.released gone).made rfl
  | unconverted gone => exact hidle (h.released gone)
  | rejected gone gone' e v => exact hidle (((h.released gone).rejected e v).released gone')

theorem hands {r : Cursor α × Option (Except Failure α)} (h : Accounts (c ::ₘ live) handed book)
    (hr : Hands c book r book') :
    Accounts (r.1 ::ₘ live) (handed ++ Cursor.given r.2) book' := by
  cases hr with
  | failure met =>
    change Accounts _ (handed ++ []) _
    rw [List.append_nil]
    exact h.moved rfl
  | nothing quiet empty =>
    change Accounts _ (handed ++ []) _
    rwa [List.append_nil]
  | @value element v r book' quiet cached hfetch =>
    have hgiven := (h.given cached).released [element]
    exact (hgiven.fetched rfl hfetch).moved rfl

theorem begun (h : Accounts live handed book) (hr : Begins book (.ok c) book') :
    Accounts (c ::ₘ live) handed book' := by
  cases hr with
  | begun iterator gone hfetch => exact (h.released gone).fetched rfl hfetch

theorem refused {f : Failure} (h : Accounts live handed book)
    (hr : Begins book (.error f : Except Failure (Cursor α)) book') :
    Accounts live handed book' := by
  cases hr with
  | refused gone _ => exact h.released gone
  | failed iterator gone gone' hfetch =>
    have hfailed := (h.released gone).fetched rfl hfetch
    exact ((cons_iff hfetch.current).1 hfailed).released gone'

end Accounts

section

variable {live : Multiset (Cursor α)} {handed : List α} {env : Env U} {p : Intake U α}
  {delete : α → Act U Unit} {w : World (U × List (Fate α))} {c : Cursor α}

namespace Cursor

variable (deletes : p.deleter = some delete)

include deletes

theorem discardCurrent_accounts (h : Accounts (c ::ₘ live) handed w.book) :
    (discardCurrent (p.booking env) c env.booking w).Settles True fun c' w' =>
      c' = { c with current := none } ∧ Accounts live handed w'.book := by
  unfold discardCurrent
  cases hc : c.current with
  | none => exact ⟨rfl, (Accounts.cons_iff hc).1 h⟩
  | some cached =>
    obtain ⟨element, v⟩ := cached
    refine (holding_settles _ (release_booked element env w)).bind fun _ w₁ _ h₁ => ?_
    refine (discard_booked deletes v env w₁).bind fun _ w₂ _ h₂ => ⟨rfl, ?_⟩
    rw [h₂, h₁.2]
    exact h.discarded hc

/-- The value that comes of the element is cached, or goes to the deleter at once. -/
theorem fetch_accounts (empty : c.current = none) (h : Accounts live handed w.book) :
    (fetch (p.booking env) c env.booking w).Settles True fun r w' =>
      Accounts (r.1 ::ₘ live) handed w'.book :=
  (fetch_fetches deletes c w).mono fun _ _ _ hr => h.fetched empty hr

theorem advance_accounts (h : Accounts (c ::ₘ live) handed w.book) :
    (advance (p.booking env) c env.booking w).Settles True fun r w' =>
      Accounts (r.1 ::ₘ live) handed w'.book := by
  unfold advance
  cases c.pending with
  | some f => exact h.moved rfl
  | none =>
    dsimp only
    split
    · exact h
    · refine (discardCurrent_accounts deletes h).bind fun c' w₁ _ h₁ => ?_
      obtain ⟨rfl, h₁⟩ := h₁
      exact fetch_accounts deletes rfl h₁

theorem next_accounts (h : Accounts (c ::ₘ live) handed w.book) :
    (next (p.booking env) c env.booking w).Settles True fun r w' =>
      Accounts (r.1 ::ₘ live) (handed ++ given r.2) w'.book :=
  (next_hands deletes c w).mono fun _ _ _ hr => h.hands hr

theorem drop_accounts (h : Accounts (c ::ₘ live) handed w.book) :
    (c.drop (p.booking env) env.booking w).Settles True fun _ w' =>
      Accounts live handed w'.book := by
  refine (holding_settles _ (discardCurrent_accounts deletes h)).bind fun _ w₁ _ h₁ => ?_
  exact (Act.Moves.release env.booking_moves c.iterator).kept h₁.2.2.released

end Cursor

namespace View

variable (deletes : p.deleter = some delete)

include deletes

theorem begin_accounts (iterable : Handle) (h : Accounts live handed w.book) :
    (begin (p.booking env) iterable env.booking w).Settles True fun r w' =>
      match r with
      | .ok c => Accounts (c ::ₘ live) handed w'.book
      | .error _ => Accounts live handed w'.book :=
  (begin_begins deletes iterable w).mono fun r _ _ hr => by
    cases r with
    | error f => exact h.refused hr
    | ok c => exact h.begun hr

theorem tryForEach_accounts {visit : σ → α → Act (U × List (Fate α)) σ} (iterable : Handle) (s : σ)
    (apart : ∀ s v, (visit s v).Moves OnlyReleased env.booking)
    (h : Accounts live handed w.book) :
    (tryForEach (p.booking env) visit iterable s env.booking w).Settles True fun _ w' =>
      Accounts live handed w'.book := by
  refine (begin_accounts deletes iterable h).bind fun r w₁ _ h₁ => ?_
  cases r with
  | error f => exact h₁
  | ok c =>
    refine Act.loop_settles (I := fun b w' => Accounts (b.1 ::ₘ live) handed w'.book)
      (fun b w₂ h₂ => ?_) h₁
    obtain ⟨c, s⟩ := b
    dsimp only
    cases c.get? with
    | none => exact (Cursor.drop_accounts deletes h₂).bind fun _ w₃ _ h₃ => h₃
    | some v =>
      refine (onFault_settles _ ((apart s v).kept h₂.released)).bind fun s' w₃ _ h₃ => ?_
      refine (holding_settles _ (Cursor.advance_accounts deletes h₃)).bind fun r w₄ _ h₄ => ?_
      obtain ⟨c', failure⟩ := r
      cases failure with
      | none => exact h₄.2
      | some f => exact (Cursor.drop_accounts deletes h₄.2).bind fun _ w₅ _ h₅ => h₅

end View

end

/-- What a client does with a view, and what it has of it: the iterators that are alive, and the
values it was handed. It looks at a cached value without any of this changing. In between it may do
what it likes, several passes may be under way, and every pass is over whatever it is begun on.

A pass of visits is one step if the visits leave the view alone. With visits that use the view
themselves it is its parts: it begins, it advances after every visit, and it drops the iterator. -/
inductive Uses (env : Env U) (p : Intake U α) :
    Multiset (Cursor α) → List α → World (U × List (Fate α)) → Prop where
  | start {w : World (U × List (Fate α))} (fresh : w.book = []) : Uses env p 0 [] w
  | aside {live : Multiset (Cursor α)} {handed : List α} {w w' : World (U × List (Fate α))}
      (h : Uses env p live handed w) (apart : OnlyReleased w.client w'.client) :
      Uses env p live handed w'
  | begun {live : Multiset (Cursor α)} {handed : List α} {w w' : World (U × List (Fate α))}
      {iterable : Handle} {c : Cursor α} (h : Uses env p live handed w)
      (run : View.begin (p.booking env) iterable env.booking w = .done (.ok c) w') :
      Uses env p (c ::ₘ live) handed w'
  | refused {live : Multiset (Cursor α)} {handed : List α} {w w' : World (U × List (Fate α))}
      {iterable : Handle} {f : Failure} (h : Uses env p live handed w)
      (run : View.begin (p.booking env) iterable env.booking w = .done (.error f) w') :
      Uses env p live handed w'
  | advanced {live : Multiset (Cursor α)} {handed : List α} {w w' : World (U × List (Fate α))}
      {c c' : Cursor α} {failure : Option Failure} (h : Uses env p (c ::ₘ live) handed w)
      (run : c.advance (p.booking env) env.booking w = .done (c', failure) w') :
      Uses env p (c' ::ₘ live) handed w'
  | handed {live : Multiset (Cursor α)} {handed : List α} {w w' : World (U × List (Fate α))}
      {c c' : Cursor α} {answer : Option (Except Failure α)} (h : Uses env p (c ::ₘ live) handed w)
      (run : c.next (p.booking env) env.booking w = .done (c', answer) w') :
      Uses env p (c' ::ₘ live) (handed ++ Cursor.given answer) w'
  | dropped {live : Multiset (Cursor α)} {handed : List α} {w w' : World (U × List (Fate α))}
      {c : Cursor α} (h : Uses env p (c ::ₘ live) handed w)
      (run : c.drop (p.booking env) env.booking w = .done () w') : Uses env p live handed w'
  | visited {live : Multiset (Cursor α)} {handed : List α} {w w' : World (U × List (Fate α))}
      {σ : Type} {visit : σ → α → Act (U × List (Fate α)) σ} {iterable : Handle} {s : σ}
      {r : Except Failure Unit × σ} (h : Uses env p live handed w)
      (apart : ∀ s v, (visit s v).Moves OnlyReleased env.booking)
      (run : View.tryForEach (p.booking env) visit iterable s env.booking w = .done r w') :
      Uses env p live handed w'

namespace View

variable {live : Multiset (Cursor α)} {handed : List α} {env : Env U} {p : Intake U α}
  {delete : α → Act U Unit} {w w' : World (U × List (Fate α))}

theorem uses_accounts (deletes : p.deleter = some delete) (h : Uses env p live handed w) :
    Accounts live handed w.book := by
  induction h with
  | start fresh =>
    rw [fresh]
    exact .nil
  | aside _ apart ih =>
    obtain ⟨gone, hbook⟩ := apart.book
    rw [hbook]
    exact ih.released gone
  | begun _ run ih => exact (begin_accounts deletes _ ih).holds run
  | refused _ run ih => exact (begin_accounts deletes _ ih).holds run
  | advanced _ run ih => exact (Cursor.advance_accounts deletes ih).holds run
  | handed _ run ih => exact (Cursor.next_accounts deletes ih).holds run
  | dropped _ run ih => exact (Cursor.drop_accounts deletes ih).holds run
  | visited _ apart run ih => exact (tryForEach_accounts deletes _ _ apart ih).holds run

/-- At any time every value that was converted has been handed out once, or deleted once, or is
cached in an iterator that is alive. A value is deleted when its converter left an error pending, or
after its element was given back. -/
theorem values_disposed_once (deletes : p.deleter = some delete) (h : Uses env p live handed w) :
    (↑(conversions w.book) : Multiset α) =
      ↑handed + ↑(deletions w.book) + live.filterMap Cursor.get? ∧
    ∀ before v after, w.book = before ++ .deleted v :: after → Due before v :=
  ⟨(uses_accounts deletes h).balanced, (uses_accounts deletes h).orderly⟩

def plainHooks (env : Env Unit) : Hooks Unit where
  call := fun _ _ w => .done none w
  slot := fun _ _ w => .done none w
  measure := fun _ _ w => .done none w
  destroy := fun _ hs => releaseAll hs env
  toPeer := fun _ _ _ w => .done none w

def plain : Env Unit := .tie (fun _ u => u) plainHooks 5

def mixedList : World (Unit × List (Fate Int64)) where
  heap := ((((Heap.empty.insert (.int 1)).2.insert (.int 2)).2.insert (.str "x")).2.insert
    (.list [⟨0, 0⟩, ⟨1, 0⟩, ⟨2, 0⟩])).2
  pending := none
  settings := {}
  client := ((), [])

def disposing : Intake Unit Int64 := { builtinIntake .i64 with deleter := some fun _ => pure () }

/-- Takes the first value, moves past the second, and drops the iterator. -/
def midway (p : Intake U α) (iterable : Handle) : Act U (Option (List α × Option Failure)) := do
  match ← begin p iterable with
  | .error _ => pure none
  | .ok c =>
    let (c, answer) ← c.next p
    let (c, failure) ← c.advance p
    c.drop p
    pure (some (Cursor.given answer, failure))

theorem midway_uses {iterable : Handle} {vs : List α} {failure : Option Failure}
    (h : Uses env p 0 [] w)
    (run : midway (p.booking env) iterable env.booking w = .done (some (vs, failure)) w') :
    Uses env p 0 vs w' := by
  obtain ⟨begun, w₁, hbegin, run⟩ := bind_eq_done.1 run
  cases begun with
  | error f => cases run
  | ok c =>
    obtain ⟨⟨c₁, answer⟩, w₂, hnext, run⟩ := bind_eq_done.1 run
    obtain ⟨⟨c₂, failure⟩, w₃, hadvance, run⟩ := bind_eq_done.1 run
    obtain ⟨_, w₄, hdrop, run⟩ := bind_eq_done.1 run
    cases run
    exact (((h.begun hbegin).handed hnext).advanced hadvance).dropped hdrop

theorem midway_plain : ((do
      let r ← midway (disposing.booking plain) ⟨3, 0⟩
      pure (r, (← Act.client).2)) plain.booking mixedList).answer? =
    some (some ([1], some (.of (.elementConversion 2))),
      [.converted ⟨0, 0⟩ 1, .released ⟨0, 0⟩, .converted ⟨1, 0⟩ 2, .released ⟨1, 0⟩, .deleted 2,
        .released ⟨2, 0⟩, .released ⟨4, 0⟩]) := by
  decide +kernel

theorem values_disposed_once_midway :
    ∃ w, Uses plain disposing 0 [1] w ∧ conversions w.book = [1, 2] ∧ deletions w.book = [2] ∧
      (↑(conversions w.book) : Multiset Int64) =
        ↑([1] : List Int64) + ↑(deletions w.book) +
          (0 : Multiset (Cursor Int64)).filterMap Cursor.get? ∧
      ∀ before v after, w.book = before ++ .deleted v :: after → Due before v := by
  obtain ⟨_, hrun⟩ := Outcome.answer?_eq_some.1 midway_plain
  obtain ⟨r, w, hmidway, hrun⟩ := bind_eq_done.1 hrun
  obtain ⟨hr, hbook⟩ := Prod.mk.inj (Outcome.done.inj hrun).1
  subst hr
  have huses := midway_uses (.start rfl) hmidway
  refine ⟨w, huses, ?_, ?_, values_disposed_once rfl huses⟩
  · exact (congrArg conversions hbook).trans rfl
  · exact (congrArg deletions hbook).trans rfl

end View

end Causeway
