import Causeway.Machine.Script
import Causeway.Proofs.CallConservation
import Mathlib.Data.String.Basic
/-!
# What the client owns

The client owns the units of its registers, and of what left its register while it was in use. Its
books are in order if no register and no number is there twice, and if everything without a register
is in use; an operation may then give up what it takes out of a register exactly once.

A script is plain if neither it nor a script inside it uses the raw units of an object. Raw units
are the one way to get the counts wrong, so only plain scripts are admitted under the strict
discipline.
-/
set_option autoImplicit false

namespace Causeway.Machine

variable {β : Type}

def Converter.bodies : Converter β → List β
  | .builtin => []
  | .custom hooks => hooks.flatMap fun (_, hook) => [hook.before, hook.after]

def SlotScript.bodies (s : SlotScript β) : List β := s.steps.map (·.body)

namespace Command

def bodies : Command β → List β
  | function _ steps _ _ => steps.map (·.body)
  | nativeObject _ onIter onNext onHint _ onDealloc =>
    [onIter, onNext, onHint].flatMap (fun s => s.toList.flatMap SlotScript.bodies) ++ [onDealloc]
  | withState _ _ body => [body]
  | native _ _ _ _ convert => convert.bodies
  | range _ _ _ _ convert => convert.bodies
  | fromPeer _ _ convert => convert.bodies
  | toPeer _ _ convert => convert.bodies
  | view _ _ convert deleter => convert.bodies ++ deleter.toList
  | forEach _ body => [body]
  | callable _ params _ returnConvert _ =>
    params.flatMap (fun p => p.2.bodies) ++ returnConvert.bodies
  | _ => []

/-- Whether a command makes a unit, or takes one, without an owner. -/
def isRaw : Command β → Bool
  | intoRaw _ | fromRaw _ | acquire _ | release _ => true
  | _ => false

end Command

/-- No raw units, in the operation itself or in any script inside it. -/
inductive Op.Plain : Op → Prop where
  | intro {command : Command (List Op)} {keep keepFailure : Option String} {quiet : Bool}
      (notRaw : command.isRaw = false)
      (bodies : ∀ body ∈ command.bodies, ∀ op ∈ body, Op.Plain op) :
      Plain (.op command keep keepFailure quiet)

theorem Op.Plain.scriptless {command : Command (List Op)} {keep keepFailure : Option String}
    {quiet : Bool} (notRaw : command.isRaw = false) (none : command.bodies = []) :
    Op.Plain (.op command keep keepFailure quiet) :=
  .intro notRaw fun body hbody => by
    rw [none] at hbody
    cases hbody

namespace Code

def bodies : Code → List (List Op)
  | block ops | dealloc _ ops => [ops]
  | function _ steps _ _ => steps.map (·.body)
  | slot _ script => script.bodies
  | converter _ => []

end Code

def Admits (d : Discipline) (bodies : List (List Op)) : Prop :=
  d = .strict → ∀ body ∈ bodies, ∀ op ∈ body, op.Plain

theorem Admits.of_subset {d : Discipline} {bodies bodies' : List (List Op)}
    (h : Admits d bodies) (hsub : bodies' ⊆ bodies) : Admits d bodies' :=
  fun hd body hbody => h hd body (hsub hbody)

namespace Registers

variable {M : Type} [AddCommMonoid M] {name : String} {x : Holding} {rs : Registers}

def Ordered (rs : Registers) : Prop := rs.Pairwise fun a b => a.1 < b.1

def total (f : Holding → M) (rs : Registers) : M := (rs.map fun r => f r.2).sum

theorem total_cons (f : Holding → M) (r : String × Holding) (rs : Registers) :
    total f (r :: rs) = f r.2 + total f rs := by
  simp [total]

theorem coe_units (rs : Registers) :
    (↑rs.units : Multiset Handle) = rs.total fun x => (↑x.units : Multiset Handle) := by
  induction rs with
  | nil => rfl
  | cons r rs ih =>
    rw [total_cons, ← ih, ← coe_append]
    rfl

theorem lookup_eq_none_of_lt (h : ∀ r ∈ rs, name < r.1) : rs.lookup name = none := by
  rw [List.lookup_eq_none_iff]
  intro r hr
  simpa using (h r hr).ne

theorem erase_eq_self_of_lt (h : ∀ r ∈ rs, name < r.1) : rs.erase name = rs := by
  refine List.filter_eq_self.2 fun r hr => ?_
  simpa using (h r hr).ne'

theorem mem_put {r : String × Holding} (h : r ∈ rs.put name x) : r = (name, x) ∨ r ∈ rs := by
  induction rs with
  | nil => exact .inl (by simpa [put] using h)
  | cons s rs ih =>
    obtain ⟨other, y⟩ := s
    simp only [put] at h
    split at h
    · obtain rfl | h := List.mem_cons.1 h
      · exact .inl rfl
      · exact .inr (List.mem_cons_of_mem _ h)
    · split at h
      · obtain rfl | h := List.mem_cons.1 h
        · exact .inl rfl
        · exact .inr h
      · obtain rfl | h := List.mem_cons.1 h
        · exact .inr List.mem_cons_self
        · exact (ih h).imp id (List.mem_cons_of_mem _)

theorem Ordered.put (h : rs.Ordered) (name : String) (x : Holding) : (rs.put name x).Ordered := by
  induction rs with
  | nil => exact List.pairwise_singleton _ _
  | cons s rs ih =>
    obtain ⟨other, y⟩ := s
    obtain ⟨hlt, hrest⟩ := List.pairwise_cons.1 h
    simp only [Registers.put]
    split
    · rename_i heq
      subst heq
      exact List.pairwise_cons.2 ⟨hlt, hrest⟩
    · rename_i hne
      split
      · rename_i hname
        refine List.pairwise_cons.2 ⟨fun r hr => ?_, h⟩
        obtain rfl | hr := List.mem_cons.1 hr
        · exact hname
        · exact hname.trans (hlt r hr)
      · rename_i hname
        refine List.pairwise_cons.2 ⟨fun r hr => ?_, ih hrest⟩
        obtain rfl | hr := mem_put hr
        · exact lt_of_le_of_ne (not_lt.1 hname) (Ne.symm hne)
        · exact hlt r hr

theorem Ordered.erase (h : rs.Ordered) (name : String) : (rs.erase name).Ordered :=
  h.sublist List.filter_sublist

theorem total_put (f : Holding → M) (h : rs.Ordered) (name : String) (x : Holding) :
    (rs.put name x).total f + (rs.lookup name).elim 0 f = rs.total f + f x := by
  induction rs with
  | nil => simp [put, total]
  | cons s rs ih =>
    obtain ⟨other, y⟩ := s
    obtain ⟨hlt, hrest⟩ := List.pairwise_cons.1 h
    simp only [put]
    split
    · rename_i heq
      subst heq
      simp only [total_cons, List.lookup_cons_self, Option.elim_some]
      abel
    · rename_i hne
      have hlookup : List.lookup name ((other, y) :: rs) = List.lookup name rs := by
        rw [List.lookup_cons, beq_false_of_ne hne]
      rw [hlookup]
      split
      · rename_i hname
        rw [lookup_eq_none_of_lt fun r hr => hname.trans (hlt r hr)]
        simp only [total_cons, Option.elim_none]
        abel
      · have hput := ih hrest
        simp only [total_cons]
        rw [add_assoc, hput]
        abel

theorem total_erase (f : Holding → M) (h : rs.Ordered) (name : String) :
    (rs.erase name).total f + (rs.lookup name).elim 0 f = rs.total f := by
  induction rs with
  | nil => simp [erase, total]
  | cons s rs ih =>
    obtain ⟨other, y⟩ := s
    obtain ⟨hlt, hrest⟩ := List.pairwise_cons.1 h
    by_cases heq : name = other
    · subst heq
      have hself : erase name ((name, y) :: rs) = rs := by
        rw [erase, List.filter_cons_of_neg (by simp)]
        exact erase_eq_self_of_lt hlt
      simp only [hself, total_cons, List.lookup_cons_self, Option.elim_some]
      abel
    · have hcons : erase name ((other, y) :: rs) = (other, y) :: erase name rs := by
        rw [erase, List.filter_cons_of_pos (by simpa using Ne.symm heq)]
        rfl
      rw [hcons, List.lookup_cons, beq_false_of_ne heq, total_cons, total_cons, add_assoc,
        ih hrest]

end Registers

def Holding.numbers (x : Holding) : Multiset Nat := ↑x.share?.toList

namespace Client

def numbers (c : Client) : Multiset Nat :=
  c.registers.total Holding.numbers + ↑(c.orphans.map (·.1))

def orphanUnits (c : Client) : List Handle := c.orphans.flatMap (·.2)

structure Sound (c : Client) : Prop where
  ordered : c.registers.Ordered
  distinct : c.numbers.Nodup
  numbered : ∀ n ∈ c.numbers, n < c.shares
  inUse : ∀ o ∈ c.orphans, o.1 ∈ c.inUse
  plain : ∀ code ∈ c.codes, ∀ body ∈ code.1.bodies, ∀ op ∈ body, op.Plain

def Fresh (c : Client) (x : Holding) : Prop :=
  ∀ n, x.share? = some n → n ∉ c.numbers ∧ n < c.shares

variable {c : Client} {name : String} {x y : Holding}

theorem fresh_of_unshared (h : x.share? = none) : c.Fresh x := by
  intro n hn
  rw [h] at hn
  cases hn

theorem Sound.with_fresh (hc : c.Sound) (hx : c.Fresh x) :
    (c.numbers + x.numbers).Nodup ∧ ∀ n ∈ c.numbers + x.numbers, n < c.shares := by
  unfold Holding.numbers
  cases hshare : x.share? with
  | none => simpa using ⟨hc.distinct, hc.numbered⟩
  | some n =>
    obtain ⟨hn, hlt⟩ := hx n hshare
    rw [Option.toList_some, Multiset.coe_singleton, add_comm, Multiset.singleton_add]
    refine ⟨Multiset.nodup_cons.2 ⟨hn, hc.distinct⟩, fun m hm => ?_⟩
    obtain rfl | hm := Multiset.mem_cons.1 hm
    · exact hlt
    · exact hc.numbered m hm

theorem fresh_of_with (h : (c.numbers + y.numbers).Nodup)
    (hlt : ∀ n ∈ c.numbers + y.numbers, n < c.shares) : c.Fresh y := by
  intro n hn
  have hy : n ∈ y.numbers := by simp [Holding.numbers, hn]
  refine ⟨fun hmem => ?_, hlt n (Multiset.mem_add.2 (.inr hy))⟩
  exact Multiset.disjoint_left.1 (Multiset.nodup_add.1 h).2.2 hmem hy

theorem numbers_put (hc : c.registers.Ordered) (name : String) (x : Holding) :
    ({ c with registers := c.registers.put name x } : Client).numbers +
      (c.registers.lookup name).elim 0 Holding.numbers = c.numbers + x.numbers := by
  have h := Registers.total_put Holding.numbers hc name x
  calc _ = (c.registers.put name x).total Holding.numbers +
        (c.registers.lookup name).elim 0 Holding.numbers + ↑(c.orphans.map (·.1)) := by
        simp only [numbers]
        abel
    _ = _ := by
        rw [h, numbers]
        abel

theorem numbers_erase (hc : c.registers.Ordered) (name : String) :
    ({ c with registers := c.registers.erase name } : Client).numbers +
      (c.registers.lookup name).elim 0 Holding.numbers = c.numbers := by
  have h := Registers.total_erase Holding.numbers hc name
  calc _ = (c.registers.erase name).total Holding.numbers +
        (c.registers.lookup name).elim 0 Holding.numbers + ↑(c.orphans.map (·.1)) := by
        simp only [numbers]
        abel
    _ = _ := by rw [h, numbers]

theorem Sound.put (hc : c.Sound) (hx : c.Fresh x) (name : String) :
    ({ c with registers := c.registers.put name x } : Client).Sound := by
  obtain ⟨hnodup, hlt⟩ := hc.with_fresh hx
  rw [← numbers_put hc.ordered name x] at hnodup hlt
  exact ⟨hc.ordered.put name x, (Multiset.nodup_add.1 hnodup).1,
    fun n hn => hlt n (Multiset.mem_add.2 (.inl hn)), hc.inUse, hc.plain⟩

theorem Sound.put_fresh (hc : c.Sound) (hx : c.Fresh x)
    (hy : c.registers.lookup name = some y) :
    ({ c with registers := c.registers.put name x } : Client).Fresh y := by
  obtain ⟨hnodup, hlt⟩ := hc.with_fresh hx
  rw [← numbers_put hc.ordered name x, hy] at hnodup hlt
  exact fresh_of_with hnodup hlt

theorem Sound.erase (hc : c.Sound) (name : String) :
    ({ c with registers := c.registers.erase name } : Client).Sound := by
  have hnodup := hc.distinct
  have hlt := hc.numbered
  rw [← numbers_erase hc.ordered name] at hnodup hlt
  exact ⟨hc.ordered.erase name, (Multiset.nodup_add.1 hnodup).1,
    fun n hn => hlt n (Multiset.mem_add.2 (.inl hn)), hc.inUse, hc.plain⟩

theorem Sound.erase_fresh (hc : c.Sound) (hy : c.registers.lookup name = some y) :
    ({ c with registers := c.registers.erase name } : Client).Fresh y := by
  have hnodup := hc.distinct
  have hlt := hc.numbered
  rw [← numbers_erase hc.ordered name, hy] at hnodup hlt
  exact fresh_of_with hnodup hlt

theorem Sound.newShare (hc : c.Sound) : ({ c with shares := c.shares + 1 } : Client).Sound :=
  ⟨hc.ordered, hc.distinct, fun n hn => Nat.lt_succ_of_lt (hc.numbered n hn), hc.inUse, hc.plain⟩

theorem Sound.newShare_fresh (hc : c.Sound) (hx : x.share? = some c.shares) :
    ({ c with shares := c.shares + 1 } : Client).Fresh x := by
  intro n hn
  rw [hx] at hn
  cases hn
  exact ⟨fun h => lt_irrefl _ (hc.numbered _ h), Nat.lt_succ_self _⟩

theorem Sound.use (hc : c.Sound) (n : Nat) : ({ c with inUse := n :: c.inUse } : Client).Sound :=
  ⟨hc.ordered, hc.distinct, hc.numbered, fun o ho => List.mem_cons_of_mem _ (hc.inUse o ho),
    hc.plain⟩

theorem Sound.orphan (hc : c.Sound) (hx : c.Fresh x) {n : Nat} (hn : x.share? = some n)
    (huse : n ∈ c.inUse) : ({ c with orphans := (n, x.units) :: c.orphans } : Client).Sound := by
  have hnumbers : ({ c with orphans := (n, x.units) :: c.orphans } : Client).numbers =
      c.numbers + x.numbers := by
    simp only [numbers, Holding.numbers, hn, List.map_cons, Option.toList_some,
      ← Multiset.cons_coe, ← Multiset.singleton_add]
    abel
  obtain ⟨hnodup, hlt⟩ := hc.with_fresh hx
  rw [← hnumbers] at hnodup hlt
  refine ⟨hc.ordered, hnodup, hlt, fun o ho => ?_, hc.plain⟩
  obtain rfl | ho := List.mem_cons.1 ho
  · exact huse
  · exact hc.inUse o ho

/-- One operation less is at work on number `n`: the units that nobody keeps any more, and the books
without them. -/
def unuse (n : Nat) (c : Client) : List Handle × Client :=
  let inUse := c.inUse.erase n
  if inUse.contains n then ([], { c with inUse })
  else ((c.orphans.lookup n).getD [],
    { c with inUse, orphans := c.orphans.filter fun o => o.1 != n })

theorem unuse_inUse (n : Nat) (c : Client) : (c.unuse n).2.inUse = c.inUse.erase n := by
  unfold unuse
  dsimp only
  split <;> rfl

/-- Under distinct numbers, what is found under one is all that goes. -/
theorem filter_units {orphans : List (Nat × List Handle)} (h : (orphans.map (·.1)).Nodup)
    (n : Nat) :
    (↑((orphans.lookup n).getD []) : Multiset Handle) +
      ↑((orphans.filter fun o => o.1 != n).flatMap (·.2)) = ↑(orphans.flatMap (·.2)) := by
  induction orphans with
  | nil => rfl
  | cons o orphans ih =>
    obtain ⟨m, units⟩ := o
    obtain ⟨hm, hrest⟩ := List.nodup_cons.1 h
    rw [List.flatMap_cons, coe_append]
    by_cases heq : n = m
    · subst heq
      have hself : orphans.filter (fun o => o.1 != n) = orphans := by
        refine List.filter_eq_self.2 fun o ho => bne_iff_ne.2 fun heq => hm ?_
        exact List.mem_map.2 ⟨o, ho, heq⟩
      rw [List.filter_cons_of_neg (by simp), hself, List.lookup_cons_self, Option.getD_some]
    · rw [List.filter_cons_of_pos (by simpa using Ne.symm heq), List.lookup_cons,
        beq_false_of_ne heq, List.flatMap_cons, coe_append, ← ih hrest]
      dsimp only
      abel

theorem Sound.unuse_units (hc : c.Sound) (n : Nat) :
    (↑(c.unuse n).1 : Multiset Handle) + ↑(c.unuse n).2.orphanUnits = ↑c.orphanUnits := by
  unfold Client.unuse
  dsimp only
  split
  · exact zero_add _
  · exact filter_units (Multiset.coe_nodup.1 (Multiset.nodup_add.1 hc.distinct).2.1) n

theorem unuse_registers (n : Nat) (c : Client) : (c.unuse n).2.registers = c.registers := by
  unfold unuse
  dsimp only
  split <;> rfl

theorem Sound.unuse (hc : c.Sound) (n : Nat) : (c.unuse n).2.Sound := by
  unfold Client.unuse
  dsimp only
  split
  · rename_i hused
    refine ⟨hc.ordered, hc.distinct, hc.numbered, fun o ho => ?_, hc.plain⟩
    by_cases heq : o.1 = n
    · rw [heq]
      simpa using hused
    · exact (List.mem_erase_of_ne heq).2 (hc.inUse o ho)
  · have hle : ({ c with
        inUse := c.inUse.erase n, orphans := c.orphans.filter fun o => o.1 != n } :
          Client).numbers ≤ c.numbers := by
      refine add_le_add (le_refl _) (Multiset.coe_le.2 ?_)
      exact (List.filter_sublist.map _).subperm
    refine ⟨hc.ordered, Multiset.nodup_of_le hle hc.distinct,
      fun n hn => hc.numbered n (Multiset.mem_of_le hle hn), fun o ho => ?_, hc.plain⟩
    obtain ⟨ho, hne⟩ := List.mem_filter.1 ho
    exact (List.mem_erase_of_ne (bne_iff_ne.1 hne)).2 (hc.inUse o ho)

theorem Sound.install (hc : c.Sound) {code : Code}
    (hcode : ∀ body ∈ code.bodies, ∀ op ∈ body, op.Plain) :
    ({ c with codes := c.codes.push (code, 0) } : Client).Sound := by
  refine ⟨hc.ordered, hc.distinct, hc.numbered, hc.inUse, fun entry h => ?_⟩
  obtain h | rfl := Array.mem_push.1 h
  · exact hc.plain entry h
  · exact hcode

theorem Sound.count (hc : c.Sound) {id : CodeId} {code : Code} {runs : Nat}
    (h : c.codes[id]? = some (code, runs)) (runs' : Nat) :
    ({ c with codes := c.codes.setIfInBounds id (code, runs') } : Client).Sound := by
  refine ⟨hc.ordered, hc.distinct, hc.numbered, hc.inUse, fun entry hentry => ?_⟩
  obtain hentry | rfl := Array.mem_or_eq_of_mem_setIfInBounds hentry
  · exact hc.plain entry hentry
  · exact hc.plain (code, runs) (Array.mem_of_getElem? h)

end Client

def clientOwnership : Ownership Client where
  units c := ↑c.registers.units + ↑c.orphanUnits
  sound := Client.Sound
  scope := Client.inUse

end Causeway.Machine
