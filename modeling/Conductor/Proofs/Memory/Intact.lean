import Conductor.Interpolation
import Conductor.Proofs.Memory.Guard
import Conductor.Proofs.Memory.View

/-!
# Intact stores

A store is intact if the guarded stems are in it with their contents and every other
stem is clear. Planting, normalizing and copying keep a store intact, and so does all
work on a memory whose variables are clear: it never meets a guarded address. A copy is
made of any value, of guarded stems too; that its result is clear takes no more than
that the lists and dictionaries on the way are.
-/

set_option autoImplicit false

namespace Conductor

/-- The guarded stems are as they have to be, and no other stem leads to them. -/
structure Store.Intact (G : Guard) (store : Store) : Prop where
  kept : ∀ a, G.guarded a → a < store.stems.size ∧ store.get a = G.content a
  apart : ∀ a, ¬ G.guarded a → Clear G (store.get a)

instance : Carrier Store := ⟨fun G store => store.Intact G⟩

section

variable {G : Guard} {α β ε : Type}

theorem Clear.intact {store : Store} (h : Clear G store) : store.Intact G := h.out

theorem Clear.get {store : Store} (h : Clear G store) {a : Address} (ha : ¬ G.guarded a) : Clear G (store.get a) :=
  h.intact.apart a ha

instance [Carrier α] [Carrier β] [Carrier ε] (x : Except ε α) (k : α → Except ε β) [h : Clear G x]
    [hk : ∀ a : Clean G α, Clear G (k a.1)] : Clear G (x >>= k) := by
  cases x with
  | error e => exact ⟨h.out⟩
  | ok a => exact hk ⟨a, h.of_ok⟩

instance [Carrier α] [Carrier β] [Carrier ε] (f : α → β) (x : Except ε α) [h : Clear G x]
    [hf : ∀ a : Clean G α, Clear G (f a.1)] : Clear G (x.map f) := by
  cases x with
  | error e => exact ⟨h.out⟩
  | ok a => exact ⟨(hf ⟨a, h.of_ok⟩).out⟩

instance [Carrier α] [Carrier ε] [Carrier β] [Inert β] (f : ε → β) (x : Except ε α) [h : Clear G x] :
    Clear G (x.mapError f) := by
  cases x with
  | error e => exact inferInstanceAs (Clear G (Except.error (f e) : Except β α))
  | ok a => exact ⟨h.out⟩

theorem Clear.andThen [Carrier α] [Carrier β] [Carrier ε] {x : Except ε α} {k : α → Except ε β} (h : Clear G x)
    (hk : ∀ a, Clear G a → Clear G (k a)) : Clear G (x >>= k) := by
  cases x with
  | error e => exact ⟨h.out⟩
  | ok a => exact hk a h.of_ok

end

namespace Store

variable {G : Guard} {store : Store}

theorem get_set (s : Stem Value) (a b : Address) :
    (store.set a s).get b = if b = a ∧ a < store.stems.size then s else store.get b := by
  simp only [set, get, Array.getD_eq_getD_getElem?, Array.getElem?_setIfInBounds]
  grind

theorem not_guarded_size (h : Clear G store) : ¬ G.guarded store.stems.size :=
  fun hs => absurd (h.intact.kept _ hs).1 (Nat.lt_irrefl _)

theorem clear_alloc (h : Clear G store) (s : Stem Value) [hs : Clear G s] : Clear G (store.alloc s) := by
  refine ⟨clear_stem.mpr (not_guarded_size h), fun a ha => ?_, fun a ha => ?_⟩
  · obtain ⟨hlt, heq⟩ := h.intact.kept a ha
    refine ⟨by simpa only [alloc, Array.size_push] using Nat.lt_succ_of_lt hlt, ?_⟩
    rw [get_alloc, if_neg (Nat.ne_of_lt hlt), heq]
  · have := h.get ha
    rw [get_alloc]
    infer_instance

theorem clear_set (h : Clear G store) {a : Address} (ha : ¬ G.guarded a) (s : Stem Value) [Clear G s] :
    Clear G (store.set a s) := by
  refine ⟨fun b hb => ?_, fun b hb => ?_⟩
  · obtain ⟨hlt, heq⟩ := h.intact.kept b hb
    refine ⟨by simpa only [set, Array.size_setIfInBounds] using hlt, ?_⟩
    have hne : ¬ (b = a ∧ a < store.stems.size) := fun h => ha (h.1 ▸ hb)
    rw [get_set, if_neg hne, heq]
  · have := h.get hb
    rw [get_set]
    infer_instance

/-! ## Planting -/

mutual
theorem clear_plant (t : Tree) {store : Store} (h : Clear G store) : Clear G (plant t store) := by
  match t with
  | .scalar s => exact inferInstanceAs (Clear G (Value.scalar s, store))
  | .stem items named =>
    have hi := clear_plantAll items h
    have hn := clear_plantNamed named (show Clear G (plantAll items store).2 from inferInstance)
    simp only [plant]
    exact clear_alloc inferInstance _
  | .list items =>
    have hi := clear_plantAll items h
    simp only [plant]
    infer_instance
  | .dict entries =>
    have he := clear_plantEntries entries h
    simp only [plant]
    infer_instance

theorem clear_plantAll (ts : List Tree) {store : Store} (h : Clear G store) : Clear G (plantAll ts store) := by
  match ts with
  | [] => exact inferInstanceAs (Clear G (([] : List Value), store))
  | t :: rest =>
    have ht := clear_plant t h
    have hr := clear_plantAll rest (show Clear G (plant t store).2 from inferInstance)
    simp only [plantAll]
    infer_instance

theorem clear_plantNamed (ts : List (String × Tree)) {store : Store} (h : Clear G store) :
    Clear G (plantNamed ts store) := by
  match ts with
  | [] => exact inferInstanceAs (Clear G (([] : List (String × Value)), store))
  | (k, t) :: rest =>
    have ht := clear_plant t h
    have hr := clear_plantNamed rest (show Clear G (plant t store).2 from inferInstance)
    simp only [plantNamed]
    infer_instance

theorem clear_plantEntries (ts : List (Tree × Tree)) {store : Store} (h : Clear G store) :
    Clear G (plantEntries ts store) := by
  match ts with
  | [] => exact inferInstanceAs (Clear G (([] : List (Value × Value)), store))
  | (k, t) :: rest =>
    have hk := clear_plant k h
    have ht := clear_plant t (show Clear G (plant k store).2 from inferInstance)
    have hr := clear_plantEntries rest (show Clear G (plant t (plant k store).2).2 from inferInstance)
    simp only [plantEntries]
    infer_instance
end

/-! ## Bringing data in and taking it out -/

mutual
theorem clear_normalize (v : Value) {store : Store} (hv : Clear G v) (h : Clear G store) :
    Clear G (normalize v store) := by
  match v with
  | .scalar s => exact inferInstanceAs (Clear G (Except.ok (Value.scalar s.normalize, store) : Except Failure _))
  | .stem a => exact inferInstanceAs (Clear G (Except.ok (Value.stem a, store) : Except Failure _))
  | .list items =>
    have hi : Clear G items := ⟨clear_list.mp hv.out⟩
    simp only [normalize]
    refine (clear_normalizeAll items hi h).andThen fun p hp => ?_
    have := clear_alloc (show Clear G p.2 from inferInstance) ⟨p.1, []⟩
    exact inferInstanceAs (Clear G (Except.ok _ : Except Failure _))
  | .dict entries =>
    have he : Clear G entries := ⟨clear_dict.mp hv.out⟩
    simp only [normalize]
    refine (clear_normalizeEntries entries he h).andThen fun p hp => ?_
    have := clear_alloc (show Clear G p.2 from inferInstance) ⟨[], Table.ofEntries p.1⟩
    exact inferInstanceAs (Clear G (Except.ok _ : Except Failure _))

theorem clear_normalizeAll (vs : List Value) {store : Store} (hv : Clear G vs) (h : Clear G store) :
    Clear G (normalizeAll vs store) := by
  match vs with
  | [] => exact inferInstanceAs (Clear G (Except.ok (([] : List Value), store) : Except Failure _))
  | v :: rest =>
    obtain ⟨hv, hr⟩ := clear_cons.mp hv
    simp only [normalizeAll]
    refine (clear_normalize v hv h).andThen fun p hp => ?_
    refine (clear_normalizeAll rest hr inferInstance).andThen fun q hq => ?_
    exact inferInstanceAs (Clear G (Except.ok (p.1 :: q.1, q.2) : Except Failure _))

theorem clear_normalizeEntries (es : List (Value × Value)) {store : Store} (hv : Clear G es) (h : Clear G store) :
    Clear G (normalizeEntries es store) := by
  match es with
  | [] => exact inferInstanceAs (Clear G (Except.ok (([] : List (String × Value)), store) : Except Failure _))
  | (k, v) :: rest =>
    obtain ⟨hv, hr⟩ := clear_cons.mp hv
    simp only [normalizeEntries]
    refine Clear.andThen inferInstance fun t _ => Clear.andThen inferInstance fun name _ => ?_
    refine (clear_normalize v ⟨hv.out.2⟩ h).andThen fun p hp => ?_
    refine (clear_normalizeEntries rest hr inferInstance).andThen fun q hq => ?_
    exact inferInstanceAs (Clear G (Except.ok ((name, p.1) :: q.1, q.2) : Except Failure _))
end

theorem clear_mixed (items : List Value) (named : List (String × Value)) [Clear G items] [Clear G named] :
    Clear G (mixed items named) := by
  unfold mixed
  infer_instance

theorem clear_unstem (h : Clear G store) (depth : Nat) (v : Value) (hv : Clear G v) :
    Clear G (unstem store depth v) := by
  induction depth generalizing v with
  | zero => cases v <;> simp only [unstem] <;> infer_instance
  | succ depth ih =>
    match v with
    | .scalar s => exact inferInstanceAs (Clear G (Except.ok _ : Except Failure Value))
    | .list items => exact inferInstanceAs (Clear G (Except.ok _ : Except Failure Value))
    | .dict entries => exact inferInstanceAs (Clear G (Except.ok _ : Except Failure Value))
    | .stem a =>
      have hs := h.get hv.free
      simp only [unstem]
      refine (Clear.traverse (show Clear G (store.get a).items from inferInstance) ih).andThen fun items _ => ?_
      refine (Clear.traverse (show Clear G (store.get a).named from inferInstance) fun e he => ?_).andThen
        fun named _ => ?_
      · have := ih e.2 inferInstance
        infer_instance
      · have := clear_mixed (G := G) items named
        exact inferInstanceAs (Clear G (Except.ok (ite _ _ _) : Except Failure Value))

theorem clear_plain (h : Clear G store) (v : Value) [hv : Clear G v] : Clear G (store.plain v) :=
  clear_unstem h _ v hv

/-! ## Copies -/

/-- What copying a value comes upon: the value itself, and what the guarded stems on the way hold. -/
inductive Meets (G : Guard) : Value → Value → Prop
  | itself (v : Value) : Meets G v v
  | item {a : Address} {v w : Value} : G.guarded a → v ∈ (G.content a).items → Meets G v w → Meets G (.stem a) w
  | entry {a : Address} {k : String} {v w : Value} :
    G.guarded a → (k, v) ∈ (G.content a).named → Meets G v w → Meets G (.stem a) w

/-- A value whose copy is clear: every list and dictionary that copying comes upon, and does not copy, is. -/
def Copyable (G : Guard) (v : Value) : Prop := ∀ w, Meets G v w → w.isStem = true ∨ Clear G w

theorem Copyable.of_clear {v : Value} (hv : Clear G v) : Copyable G v := by
  intro w hw
  cases hw with
  | itself => exact Or.inr hv
  | item ha => exact absurd ha hv.free
  | entry ha => exact absurd ha hv.free

theorem Copyable.clear {v : Value} (hv : Copyable G v) (hs : v.isStem = false) : Clear G v :=
  (hv v (.itself v)).resolve_left (by simp [hs])

theorem Copyable.parts (h : Clear G store) {a : Address} (ha : Copyable G (.stem a)) :
    (∀ v ∈ (store.get a).items, Copyable G v) ∧ ∀ e ∈ (store.get a).named, Copyable G e.2 := by
  by_cases hg : G.guarded a
  · rw [(h.intact.kept a hg).2]
    exact ⟨fun v hv w hw => ha w (.item hg hv hw), fun e he w hw => ha w (.entry hg he hw)⟩
  · have hs := h.get hg
    exact ⟨fun v hv => .of_clear (Clear.of_mem inferInstance hv), fun e he =>
      .of_clear (clear_entry.mp (Clear.of_mem (l := (store.get a).named) inferInstance he))⟩

section

variable {f : Value → Store → Except Failure (Value × Store)}

theorem clear_each (hf : ∀ v store, Copyable G v → Clear G store → Clear G (f v store)) (vs : List Value)
    (hv : ∀ v ∈ vs, Copyable G v) {store : Store} (h : Clear G store) : Clear G (copyTo.each f vs store) := by
  induction vs generalizing store with
  | nil => exact inferInstanceAs (Clear G (Except.ok (([] : List Value), store) : Except Failure _))
  | cons v rest ih =>
    obtain ⟨hv, hr⟩ := List.forall_mem_cons.mp hv
    simp only [copyTo.each]
    refine (hf v store hv h).andThen fun p hp => ?_
    refine (ih hr inferInstance).andThen fun q hq => ?_
    exact inferInstanceAs (Clear G (Except.ok (p.1 :: q.1, q.2) : Except Failure _))

theorem clear_eachNamed (hf : ∀ v store, Copyable G v → Clear G store → Clear G (f v store))
    (es : List (String × Value)) (he : ∀ e ∈ es, Copyable G e.2) {store : Store} (h : Clear G store) :
    Clear G (copyTo.eachNamed f es store) := by
  induction es generalizing store with
  | nil => exact inferInstanceAs (Clear G (Except.ok (([] : List (String × Value)), store) : Except Failure _))
  | cons e rest ih =>
    obtain ⟨he, hr⟩ := List.forall_mem_cons.mp he
    simp only [copyTo.eachNamed]
    refine (hf e.2 store he h).andThen fun p hp => ?_
    refine (ih hr inferInstance).andThen fun q hq => ?_
    exact inferInstanceAs (Clear G (Except.ok ((e.1, p.1) :: q.1, q.2) : Except Failure _))

end

theorem clear_copyTo {source : Store} (hsource : Clear G source) (depth : Nat) (v : Value) (store : Store)
    (hv : Copyable G v) (h : Clear G store) : Clear G (copyTo source depth v store) := by
  induction depth generalizing v store with
  | zero =>
    match v with
    | .stem a => exact inferInstanceAs (Clear G (Except.error _ : Except Failure (Value × Store)))
    | .scalar _ | .list _ | .dict _ =>
      have := hv.clear rfl
      exact inferInstanceAs (Clear G (Except.ok _ : Except Failure (Value × Store)))
  | succ depth ih =>
    match v with
    | .scalar _ | .list _ | .dict _ =>
      have := hv.clear rfl
      exact inferInstanceAs (Clear G (Except.ok _ : Except Failure (Value × Store)))
    | .stem a =>
      obtain ⟨hitems, hnamed⟩ := hv.parts hsource
      simp only [copyTo]
      refine (clear_each ih _ hitems h).andThen fun p hp => ?_
      refine (clear_eachNamed ih _ hnamed inferInstance).andThen fun q hq => ?_
      have := clear_alloc (show Clear G q.2 from inferInstance) ⟨p.1, q.1⟩
      exact inferInstanceAs (Clear G (Except.ok _ : Except Failure _))

theorem clear_copy {v : Value} (hv : Copyable G v) (h : Clear G store) : Clear G (copy v store) :=
  clear_copyTo h _ v store hv h

end Store

/-! ## Work on a memory -/

instance : Carrier Memory := ⟨fun G mem => Clear G mem.scope ∧ Clear G mem.store⟩

namespace Memory

variable {G : Guard} {α β : Type}

def Gives (G : Guard) (Q : α → Prop) (x : Act α) : Prop :=
  ∀ mem, Clear G mem → match x mem with
    | .ok a mem' => Q a ∧ Clear G mem'
    | .error _ mem' => Clear G mem'

theorem Gives.bind {Q : α → Prop} {R : β → Prop} {x : Act α} {k : α → Act β} (hx : Gives G Q x)
    (hk : ∀ a, Q a → Gives G R (k a)) : Gives G R (x >>= k) := by
  intro mem hm
  have h := hx mem hm
  simp only [Bind.bind, EStateM.bind]
  cases hr : x mem with
  | ok a mem' =>
    rw [hr] at h
    exact hk a h.1 mem' h.2
  | error e mem' =>
    rw [hr] at h
    exact h

/-- Work that leaves a clear memory clear and gives clear results. -/
class Heeds (G : Guard) [Carrier α] (x : Act α) : Prop where
  gives : Gives G (Clear G) x

instance (mem : Memory) [h : Clear G mem] : Clear G mem.scope := h.out.1

instance (mem : Memory) [h : Clear G mem] : Clear G mem.store := h.out.2

instance (scope : Scope) (store : Store) [hs : Clear G scope] [ht : Clear G store] :
    Clear G (Memory.mk scope store) := ⟨⟨hs, ht⟩⟩

namespace Heeds

variable [Carrier α] [Carrier β]

instance (a : α) [h : Clear G a] : Heeds G (pure a) := ⟨fun _ hm => ⟨h, hm⟩⟩

theorem andThen {x : Act α} {k : α → Act β} [hx : Heeds G x] (hk : ∀ a, Clear G a → Heeds G (k a)) :
    Heeds G (x >>= k) := ⟨hx.gives.bind fun a ha => (hk a ha).gives⟩

instance (x : Act α) (k : α → Act β) [Heeds G x] [hk : ∀ a : Clean G α, Heeds G (k a.1)] : Heeds G (x >>= k) :=
  andThen fun a ha => hk ⟨a, ha⟩

instance (c : Prop) [Decidable c] (x y : Act α) [Heeds G x] [Heeds G y] : Heeds G (if c then x else y) := by
  split <;> infer_instance

theorem onGet {k : Memory → Act α} (hk : ∀ mem, Clear G mem → Heeds G (k mem)) : Heeds G (get >>= k) :=
  ⟨fun mem hm => (hk mem hm).gives mem hm⟩

instance (k : Memory → Act α) [hk : ∀ mem : Clean G Memory, Heeds G (k mem.1)] : Heeds G (get >>= k) :=
  onGet fun mem hm => hk ⟨mem, hm⟩

instance (f : Memory → Memory) [hf : ∀ mem : Clean G Memory, Clear G (f mem.1)] : Heeds G (modify f) :=
  ⟨fun mem hm => ⟨inferInstance, hf ⟨mem, hm⟩⟩⟩

instance mapM (f : α → Act β) [hf : ∀ a, Heeds G (f a)] (l : List α) : Heeds G (l.mapM f) := by
  induction l with
  | nil => rw [List.mapM_nil]; infer_instance
  | cons a l ih => rw [List.mapM_cons]; infer_instance

end Heeds

instance [Carrier α] (f : Failure) : Heeds G (fail f : Act α) := ⟨fun _ hm => hm⟩

instance [Carrier α] (x : Except Failure α) [h : Clear G x] : Heeds G (liftE x) := by
  cases x with
  | ok a =>
    have := h.of_ok
    exact inferInstanceAs (Heeds G (pure a))
  | error f => exact inferInstanceAs (Heeds G (fail f))

instance [Carrier α] (x : Except Problem α) [h : Clear G x] : Heeds G (liftP x) := by
  cases x with
  | ok a =>
    have := h.of_ok
    exact inferInstanceAs (Heeds G (pure a))
  | error p => exact ⟨fun _ hm => hm⟩

theorem heeds_withStore [Carrier α] {f : Store → Except Failure (α × Store)}
    (hf : ∀ store, Clear G store → Clear G (f store)) : Heeds G (withStore f) := by
  unfold withStore
  refine .onGet fun mem hm => ?_
  have h := hf mem.store inferInstance
  split
  · next a store hr =>
    rw [hr] at h
    have := h.of_ok
    have ha : Clear G a := ⟨this.out.1⟩
    have hs : Clear G store := ⟨this.out.2⟩
    infer_instance
  · infer_instance

instance (v : Value) : Heeds G (tree v) := by
  unfold tree
  refine .onGet fun mem _ => ?_
  infer_instance

instance (s : Stem Value) [Clear G s] : Heeds G (alloc s) :=
  heeds_withStore fun _ hs => ⟨(Store.clear_alloc hs s).out⟩

instance (t : Tree) : Heeds G (plant t) := heeds_withStore fun _ hs => ⟨(Store.clear_plant t hs).out⟩

instance (v : Value) [hv : Clear G v] : Heeds G (normalize v) :=
  heeds_withStore fun _ hs => Store.clear_normalize v hv hs

theorem heeds_copy {v : Value} (hv : Store.Copyable G v) : Heeds G (copy v) :=
  heeds_withStore fun _ hs => Store.clear_copy hv hs

instance (key : Tree) : Heeds G (keyed key) := by
  unfold keyed
  infer_instance

/-! ### Along a tail -/

theorem heeds_stem {a : Address} (ha : ¬ G.guarded a) : Heeds G (stem a) := by
  unfold stem
  refine .onGet fun mem _ => ?_
  have := Clear.get (show Clear G mem.store from inferInstance) ha
  infer_instance

theorem heeds_stemGet {a : Address} (ha : ¬ G.guarded a) (key : Key) : Heeds G (stemGet a key) := by
  unfold stemGet
  have := heeds_stem ha
  infer_instance

theorem heeds_stemSet {a : Address} (ha : ¬ G.guarded a) (key : Key) (v : Value) [Clear G v] :
    Heeds G (stemSet a key v) := by
  unfold stemSet
  refine .onGet fun mem _ => ?_
  extract_lets store asCount
  have hs := Clear.get (show Clear G store from inferInstanceAs (Clear G mem.store)) ha
  have hset : Clear G ((store.get a).set (.text "") asCount key v) := by
    unfold Stem.set
    split
    · infer_instance
    · infer_instance
    · infer_instance
  have hwrite (s : Stem Value) (h : Clear G s) :
      Heeds G (modify fun m : Memory => { m with store := m.store.set a s }) := by
    have (mem : Clean G Memory) := Store.clear_set (show Clear G mem.1.store from inferInstance) ha s
    infer_instance
  exact .andThen fun s h => hwrite s h

theorem heeds_descend (v : Value) (keys : List Tree) (hv : Clear G v) : Heeds G (descend v keys) := by
  induction keys generalizing v with
  | nil => cases v <;> exact inferInstanceAs (Heeds G (pure _))
  | cons key rest ih =>
    match v with
    | .scalar _ | .list _ | .dict _ => exact inferInstanceAs (Heeds G (pure _))
    | .stem a =>
      have hget (k : Key) := heeds_stemGet hv.free k
      exact .andThen fun k _ => .andThen fun w hw => ih w hw

instance (v : Value) (keys : List Tree) [hv : Clear G v] : Heeds G (descend v keys) := heeds_descend v keys hv

instance (name : String) (tail : List Tree) : Heeds G (read name tail) := by
  unfold read
  infer_instance

instance (key : String) (v : Value) [Clear G v] : Heeds G (bind key v) := by
  unfold Memory.bind
  infer_instance

theorem childStem_gives {a : Address} (ha : ¬ G.guarded a) (key : Tree) :
    Gives G (fun b => ¬ G.guarded b) (childStem a key) := by
  unfold childStem
  refine Gives.bind (inferInstance : Heeds G (keyed key)).gives fun k _ => ?_
  refine Gives.bind (heeds_stemGet ha k).gives fun v hv => ?_
  split
  · next b => exact fun mem hm => ⟨hv.free, hm⟩
  · refine Gives.bind (inferInstance : Heeds G (alloc {})).gives fun w hw => ?_
    split
    · next b => exact Gives.bind (heeds_stemSet ha k (.stem b)).gives fun _ _ mem hm => ⟨hw.free, hm⟩
    · exact fun mem hm => ⟨ha, hm⟩

theorem heeds_writeBelow (v : Value) [Clear G v] {a : Address} (ha : ¬ G.guarded a) (keys : List Tree) :
    Heeds G (writeBelow v a keys) := by
  induction keys generalizing a with
  | nil => exact inferInstanceAs (Heeds G (pure ()))
  | cons key rest ih =>
    cases rest with
    | nil =>
      have hset (k : Key) := heeds_stemSet ha k v
      simp only [writeBelow]
      infer_instance
    | cons next rest => exact ⟨Gives.bind (childStem_gives ha key) fun b hb => (ih hb).gives⟩

instance (name : String) (v : Value) (tail : List Tree) [Clear G v] : Heeds G (write name v tail) := by
  unfold write
  refine .andThen fun key _ => ?_
  split
  · infer_instance
  · refine .onGet fun mem hm => ?_
    have hfound : Clear G (mem.scope.get? key) := inferInstance
    split
    · next a hscope =>
      rw [hscope] at hfound
      exact heeds_writeBelow v hfound.of_some.free tail
    · refine .andThen fun w hw => ?_
      split
      · next a =>
        have := heeds_writeBelow v hw.free tail
        infer_instance
      · infer_instance

theorem heeds_deleteBelow (v : Value) (keys : List Tree) (hv : Clear G v) : Heeds G (deleteBelow v keys) := by
  induction keys generalizing v with
  | nil => cases v <;> exact inferInstanceAs (Heeds G (pure ()))
  | cons key rest ih =>
    match v, rest with
    | .scalar _, _ | .list _, _ | .dict _, _ => exact inferInstanceAs (Heeds G (pure ()))
    | .stem a, [] =>
      have hdelete (k : Key) :
          Heeds G (modify fun m : Memory => { m with store := m.store.set a ((m.store.get a).delete k) }) := by
        have (mem : Clean G Memory) : Clear G (mem.1.store.set a ((mem.1.store.get a).delete k)) := by
          have hs : Clear G mem.1.store := inferInstance
          have := hs.get hv.free
          exact Store.clear_set hs hv.free _
        infer_instance
      simp only [deleteBelow]
      infer_instance
    | .stem a, next :: rest =>
      have hget (k : Key) := heeds_stemGet hv.free k
      exact .andThen fun k _ => .andThen fun w hw => ih w hw

instance (name : String) (tail : List Tree) : Heeds G (delete name tail) := by
  unfold delete
  have (v : Value) [hv : Clear G v] := heeds_deleteBelow v tail hv
  infer_instance

instance (name : String) : Heeds G (has name) := by
  unfold has
  infer_instance

instance (reference : String) : Heeds G (readPath reference) := by
  unfold readPath
  split <;> infer_instance

def bindCopies (bindings : List (String × Value)) : Act Unit :=
  bindings.forM fun (name, v) => do write name (← copy v) []

theorem seed_apply (bindings : List (String × Value)) (mem : Memory) :
    seed bindings mem = bindCopies bindings { mem with scope := [] } := rfl

theorem heeds_bindCopies {bindings : List (String × Value)} (h : ∀ e ∈ bindings, Store.Copyable G e.2) :
    Heeds G (bindCopies bindings) := by
  induction bindings with
  | nil => exact inferInstanceAs (Heeds G (pure PUnit.unit))
  | cons e rest ih =>
    obtain ⟨he, hr⟩ := List.forall_mem_cons.mp h
    have := heeds_copy he
    have := ih hr
    exact .andThen fun _ _ => this

theorem seed_clear {bindings : List (String × Value)} (h : ∀ e ∈ bindings, Store.Copyable G e.2) (mem : Memory)
    (hm : Clear G mem.store) : match seed bindings mem with
      | .ok _ mem' => Clear G mem'
      | .error _ mem' => Clear G mem' := by
  have hs := (heeds_bindCopies h).gives { mem with scope := [] } inferInstance
  rw [seed_apply]
  split
  · next hr =>
    rw [hr] at hs
    exact hs.2
  · next hr =>
    rw [hr] at hs
    exact hs

end Memory

instance {G : Guard} (p : Interpolation.Pattern) (part : Interpolation.Part) :
    Memory.Heeds G (part.filled p Memory.readPath) := by
  unfold Interpolation.Part.filled
  split
  · infer_instance
  · split <;> infer_instance

instance {G : Guard} (p : Interpolation.Pattern) (text : String) : Memory.Heeds G (Interpolation.apply p text) := by
  unfold Interpolation.apply Interpolation.fill
  infer_instance

end Conductor
