import Conductor.Proofs.Memory.Intact
import Conductor.Run.Require

/-!
# What a run can get hold of

The addresses that a program can come by are in the variables and arguments of its
session, in the functions it can call, in what the host keeps in its functions, modules
and replies, and in the stems of the store. This module says of each kind of data what
it takes to be clear, and that calls and look-ups make clear data of clear data: binding
arguments, calling a function of the host, asking a handler, resolving a name.
-/

set_option autoImplicit false

namespace Conductor

open Address (Handler Reply Methods Service)

/-! ## What hosts and sessions hold -/

instance : Carrier Signature := ⟨fun G s => Clear G s.params ∧ Clear G s.namedOnly⟩

instance : Carrier Behaviour where
  clear G
    | .constant v => Clear G v
    | _ => True

instance : Carrier HostFunction := ⟨fun G f => Clear G f.signature ∧ Clear G f.behaviour⟩

instance : Carrier Arguments := ⟨fun G a => Clear G a.placed ∧ Clear G a.named⟩

instance : Carrier HostOutcome where
  clear G
    | .value v => Clear G v
    | _ => True

instance : Carrier Routine where
  clear G
    | .host f => Clear G f
    | _ => True

instance : Carrier Entry := ⟨fun G e => Clear G e.routine⟩

instance : Carrier Resolver := ⟨fun G r =>
  Clear G r.builtins ∧ Clear G r.internal ∧ Clear G r.required ∧ Clear G r.capabilities⟩

instance : Carrier HostModule := ⟨fun G m => Clear G m.functions⟩

instance : Carrier Content where
  clear G
    | .module m => Clear G m
    | .bytes _ => True

instance : Carrier Files := ⟨fun G fs => Clear G fs.entries⟩

instance : Carrier Module.Source where
  clear G
    | .module m => Clear G m
    | .text _ => True

instance : Carrier Module.Node := ⟨fun G n => Clear G n.functions⟩

instance : Carrier Module.Loader := ⟨fun G l =>
  Clear G l.sources ∧ Clear G l.hostModules ∧ Clear G l.nodes ∧ Clear G l.outcomes⟩

instance : Carrier Module.Loader.Entrance where
  clear G
    | .ready functions => Clear G functions
    | .fresh _ l => Clear G l
    | _ => True

instance : Carrier Reply where
  clear G
    | .data v => Clear G v
    | .settled _ result error => Clear G result ∧ Clear G error

instance : Carrier Methods := ⟨fun G m =>
  Clear G m.methods ∧ Clear G m.command ∧ Clear G m.heredoc ∧ Clear G m.onMatch⟩

instance : Carrier Service where
  clear G
    | .methods m => Clear G m
    | .canned replies _ => Clear G replies
    | .none => True

instance : Carrier Handler := ⟨fun G h => Clear G h.service⟩

instance : Carrier ScriptModule := ⟨fun G m => Clear G m.required⟩

instance : Carrier Play.Given := ⟨fun G g => Clear G g.values ∧ Clear G g.rest⟩

instance : Carrier Play.Answer where
  clear G
    | .reply r => Clear G r
    | _ => True

instance : Carrier Signal where
  clear G
    | .ret v => Clear G v
    | .exit v => Clear G v
    | _ => True

/-- What a session has besides its variables and arguments: clear functions, traps that lead to labels, and no
halt but a cancellation. -/
structure Session.Settled (G : Guard) (s : Session) : Prop where
  resolver : Clear G s.resolver
  traps : G.trapped → ∀ trap label, s.traps.get? trap = some label →
    ∃ i, s.labels.lookup (Text.upper label) = some i
  halting : G.trapped → ∀ c, s.halting = some c → c.kind = .cancellation

structure Session.Sound (G : Guard) (s : Session) : Prop extends Session.Settled G s where
  scope : Clear G s.scope
  args : Clear G s.args.head?

structure World.Sound (G : Guard) (w : World) : Prop where
  store : Clear G w.store
  files : Clear G w.files
  loader : Clear G w.loader
  modules : Clear G w.modules
  handlers : Clear G w.handlers

theorem Session.Sound.disarmed {G : Guard} {s : Session} (hs : s.Sound G) (trap : Syntax.Trap) :
    ({ s with traps := s.traps.erase trap } : Session).Sound G :=
  { hs with traps := fun ht t label h => hs.traps ht t label (Table.get?_of_erase h) }

instance : Carrier Session := ⟨fun G s => s.Sound G⟩

instance : Carrier World := ⟨fun G w => w.Sound G⟩

instance : Carrier Machine := ⟨fun G m => Clear G m.session ∧ Clear G m.world⟩

section

variable {G : Guard}

theorem Clear.sound {s : Session} (h : Clear G s) : s.Sound G := h.out

theorem Clear.worldSound {w : World} (h : Clear G w) : w.Sound G := h.out

instance (m : Machine) [h : Clear G m] : Clear G m.session := h.out.1

instance (m : Machine) [h : Clear G m] : Clear G m.world := h.out.2

instance (s : Session) (w : World) [hs : Clear G s] [hw : Clear G w] : Clear G (Machine.mk s w) := ⟨⟨hs, hw⟩⟩

instance (s : Session) [h : Clear G s] : Clear G s.scope := h.sound.scope

instance (s : Session) [h : Clear G s] : Clear G s.args.head? := h.sound.args

instance (s : Session) [h : Clear G s] : Clear G s.resolver := h.sound.resolver

instance (w : World) [h : Clear G w] : Clear G w.store := h.worldSound.store

instance (w : World) [h : Clear G w] : Clear G w.files := h.worldSound.files

instance (w : World) [h : Clear G w] : Clear G w.loader := h.worldSound.loader

instance (w : World) [h : Clear G w] : Clear G w.modules := h.worldSound.modules

instance (w : World) [h : Clear G w] : Clear G w.handlers := h.worldSound.handlers

instance (s : Signature) [h : Clear G s] : Clear G s.params := h.out.1

instance (s : Signature) [h : Clear G s] : Clear G s.namedOnly := h.out.2

instance (f : HostFunction) [h : Clear G f] : Clear G f.signature := h.out.1

instance (f : HostFunction) [h : Clear G f] : Clear G f.behaviour := h.out.2

instance (a : Arguments) [h : Clear G a] : Clear G a.placed := h.out.1

instance (a : Arguments) [h : Clear G a] : Clear G a.named := h.out.2

instance (placed : List Value) (named : Table String Value) [hp : Clear G placed] [hn : Clear G named] :
    Clear G (Arguments.mk placed named) := ⟨⟨hp, hn⟩⟩

instance (e : Entry) [h : Clear G e] : Clear G e.routine := h.out

instance (r : Resolver) [h : Clear G r] : Clear G r.builtins := h.out.1

instance (r : Resolver) [h : Clear G r] : Clear G r.internal := h.out.2.1

instance (r : Resolver) [h : Clear G r] : Clear G r.required := h.out.2.2.1

instance (r : Resolver) [h : Clear G r] : Clear G r.capabilities := h.out.2.2.2

instance (m : HostModule) [h : Clear G m] : Clear G m.functions := h.out

instance (fs : Files) [h : Clear G fs] : Clear G fs.entries := h.out

instance (n : Module.Node) [h : Clear G n] : Clear G n.functions := h.out

instance (l : Module.Loader) [h : Clear G l] : Clear G l.sources := h.out.1

instance (l : Module.Loader) [h : Clear G l] : Clear G l.hostModules := h.out.2.1

instance (l : Module.Loader) [h : Clear G l] : Clear G l.nodes := h.out.2.2.1

instance (l : Module.Loader) [h : Clear G l] : Clear G l.outcomes := h.out.2.2.2

instance (m : Methods) [h : Clear G m] : Clear G m.methods := h.out.1

instance (m : Methods) [h : Clear G m] : Clear G m.command := h.out.2.1

instance (m : Methods) [h : Clear G m] : Clear G m.heredoc := h.out.2.2.1

instance (m : Methods) [h : Clear G m] : Clear G m.onMatch := h.out.2.2.2

instance (h : Handler) [hh : Clear G h] : Clear G h.service := hh.out

instance (m : ScriptModule) [h : Clear G m] : Clear G m.required := h.out

instance (g : Play.Given) [h : Clear G g] : Clear G g.values := h.out.1

instance (g : Play.Given) [h : Clear G g] : Clear G g.rest := h.out.2

instance (v : Value) [h : Clear G v] : Clear G (HostOutcome.value v) := ⟨h⟩

instance (v : Value) [h : Clear G v] : Clear G (Reply.data v) := ⟨h⟩

instance (b : Bool) (v w : Value) [h : Clear G v] [h' : Clear G w] : Clear G (Reply.settled b v w) := ⟨⟨h, h'⟩⟩

instance (r : Reply) [h : Clear G r] : Clear G (Play.Answer.reply r) := ⟨h⟩

instance (v : Value) [h : Clear G v] : Clear G (Signal.ret v) := ⟨h⟩

instance (v : Value) [h : Clear G v] : Clear G (Signal.exit v) := ⟨h⟩

instance (p : Problem) : Clear G (Signal.problem p) := ⟨trivial⟩

instance : Clear G Signal.exhausted := ⟨trivial⟩

/-! ### Host functions -/

instance (n : Number) : Clear G (Value.ofNumber n) := by cases n <;> exact inferInstanceAs (Clear G (Value.scalar _))

theorem clear_takeNamed (s : Signature) (function : String) (named : List (String × Value))
    (frame extra : Table String Value) (hn : Clear G named) (hf : Clear G frame) (he : Clear G extra) :
    Clear G (s.takeNamed function named frame extra) := by
  fun_induction Signature.takeNamed s function named frame extra with
  | case1 => infer_instance
  | case2 => infer_instance
  | case3 k v rest frame extra hk hc ih =>
    obtain ⟨hv, hr⟩ := clear_cons.mp hn
    have := clear_entry.mp hv
    exact ih hr inferInstance he
  | case4 k v rest frame extra hk hx ih =>
    obtain ⟨hv, hr⟩ := clear_cons.mp hn
    have := clear_entry.mp hv
    exact ih hr hf inferInstance
  | case5 => infer_instance

instance (frame : Table String Value) (p : String × Option Value) [Clear G frame] [Clear G p] :
    Clear G (Signature.settle frame p) := by
  unfold Signature.settle
  infer_instance

instance (s : Signature) (function : String) (a : Arguments) [Clear G s] [Clear G a] :
    Clear G (s.frame function a) := by
  unfold Signature.frame
  refine (clear_takeNamed s function a.named _ [] inferInstance inferInstance inferInstance).andThen ?_
  rintro ⟨given, extra⟩ hp
  obtain ⟨hgiven, hextra⟩ := clear_pair.mp hp
  dsimp -zeta only
  extract_lets rest surplus lacking variadic named settled
  have hrest : Clear G rest := inferInstanceAs (Clear G (a.placed.drop _))
  have hvariadic : Clear G variadic := by
    unfold variadic
    split <;> infer_instance
  have hnamed : Clear G named := by
    unfold named
    split <;> infer_instance
  have hsettled (u : Unit) : Clear G (settled u) :=
    Clear.andThen inferInstance fun _ _ => Clear.andThen inferInstance fun _ _ =>
      inferInstanceAs (Clear G (Except.ok _ : Except Failure _))
  clear_value settled
  split
  · exact Clear.andThen inferInstance fun u _ => hsettled u
  · exact hsettled _

instance (f : HostFunction) (a : Arguments) [hf : Clear G f] [Clear G a] : Clear G (f.call a) := by
  unfold HostFunction.call
  split
  · exact ⟨trivial⟩
  · next frame hframe =>
    have : Clear G (f.signature.frame f.name a) := inferInstance
    rw [hframe] at this
    have := this.of_ok
    split
    · infer_instance
    · next v hb =>
      have hv : Clear G f.behaviour := inferInstance
      rw [hb] at hv
      exact ⟨hv.out⟩
    · infer_instance
    · split
      · infer_instance
      · exact ⟨trivial⟩
    · exact ⟨trivial⟩
    · exact ⟨trivial⟩
    · exact ⟨trivial⟩
    · exact ⟨trivial⟩

/-! ### Arguments -/

theorem clear_bindNamed (e : Entry) (supplied : List Supplied) (bound extra : Table String Value)
    (hs : Clear G supplied) (hb : Clear G bound) (he : Clear G extra) :
    Clear G (e.bindNamed supplied bound extra) := by
  fun_induction Entry.bindNamed e supplied bound extra with
  | case1 => infer_instance
  | case2 v rest bound extra ih => exact ih (clear_cons.mp hs).2 hb he
  | case3 name v rest bound extra hp hx ih =>
    obtain ⟨hv, hr⟩ := clear_cons.mp hs
    have := clear_entry.mp hv
    exact ih hr hb inferInstance
  | case4 => exact ⟨trivial⟩
  | case5 => exact ⟨trivial⟩
  | case6 name v rest bound extra param hp hc ih =>
    obtain ⟨hv, hr⟩ := clear_cons.mp hs
    have := clear_entry.mp hv
    exact ih hr inferInstance he

theorem clear_bindPiped (e : Entry) (piped : Option Value) (places : List String) (placed : List Value)
    (bound : Table String Value) [hp : Clear G piped] [Clear G placed] [Clear G bound] :
    Clear G (e.bindPiped piped places placed bound) := by
  unfold Entry.bindPiped
  split
  · infer_instance
  · next v =>
    have := hp.of_some
    split
    · infer_instance
    · split
      · split
        · exact ⟨trivial⟩
        · infer_instance
      · exact ⟨trivial⟩

theorem clear_arrange (e : Entry) (bound : Table String Value) [hb : Clear G bound] (contiguous : Bool)
    (params : List String) : Clear G (e.arrange bound contiguous params) := by
  induction params generalizing contiguous with
  | nil => exact inferInstanceAs (Clear G (Arguments.mk [] []))
  | cons param rest ih =>
    have hfound : Clear G (bound.get? param) := inferInstance
    have (c : Bool) := ih c
    simp only [Entry.arrange]
    split
    · split
      · next v hv =>
        rw [hv] at hfound
        have := hfound.of_some
        infer_instance
      · exact ih contiguous
    · split
      · next v hv =>
        rw [hv] at hfound
        have := hfound.of_some
        infer_instance
      · exact ih false

instance (e : Entry) (supplied : List Supplied) (piped : Option Value) (asStatement : Bool) [Clear G supplied]
    [Clear G piped] : Clear G (e.bind supplied piped asStatement) := by
  unfold Entry.bind
  extract_lets placed
  have hplaced : Clear G placed := inferInstanceAs (Clear G ((supplied.filter _).map Prod.snd))
  refine Clear.andThen inferInstance fun _ _ => ?_
  refine (clear_bindNamed e supplied [] [] inferInstance inferInstance inferInstance).andThen ?_
  rintro ⟨bound, extra⟩ hp
  obtain ⟨hbound, hextra⟩ := clear_pair.mp hp
  refine (clear_bindPiped e piped _ placed bound).andThen ?_
  rintro ⟨places, placed, bound⟩ hq
  obtain ⟨-, hq⟩ := clear_pair.mp hq
  obtain ⟨hplaced, hbound⟩ := clear_pair.mp hq
  dsimp -zeta only
  extract_lets takers bound surplus arranged settled
  have hbound : Clear G bound := inferInstanceAs (Clear G (Table.putAll _ (takers.zip placed)))
  have hsurplus : Clear G surplus := inferInstanceAs (Clear G (placed.drop _))
  have harranged : Clear G arranged := clear_arrange e bound true e.params
  have hsettled (u : Unit) : Clear G (settled u) := by
    unfold settled
    split
    · exact ⟨trivial⟩
    · exact inferInstanceAs (Clear G (Except.ok _ : Except Condition _))
  clear_value settled
  split
  · exact Clear.andThen ⟨trivial⟩ fun u _ => hsettled u
  · exact hsettled _

theorem clear_payload {store : Store} (hs : Clear G store) (params : List String) (a : Arguments) [Clear G a] :
    Clear G (a.payload store params) := by
  unfold Arguments.payload
  extract_lets table surplus full
  have htable : Clear G table := inferInstanceAs (Clear G (Table.putAll _ _))
  have hsurplus : Clear G surplus := inferInstanceAs (Clear G (a.placed.drop _))
  refine Clear.traverse (inferInstanceAs (Clear G (ite _ _ _))) fun e he => ?_
  have := Store.clear_plain hs e.2
  infer_instance

/-! ### Handlers and entries -/

instance (m : Methods) (name : String) [Clear G m] : Clear G (m.find? name) := by
  unfold Methods.find?
  split
  · next f hf =>
    obtain ⟨before, after, hk, -⟩ := List.lookup_eq_some_iff.mp hf
    have hmem : (name, f) ∈ m.methods := by simp [hk]
    have hmethods : Clear G m.methods := inferInstance
    have := clear_entry.mp (hmethods.of_mem hmem)
    infer_instance
  · infer_instance

theorem clear_field (k : String) (es : List (Value × Value)) (h : Clear G es) :
    Clear G (Methods.target.field k es) := by
  fun_induction Methods.target.field k es with
  | case1 => infer_instance
  | case2 k' v rest hk =>
    have := (clear_pair.mp (clear_cons.mp h).1).2
    infer_instance
  | case3 k' v rest hk ih => exact ih (clear_cons.mp h).2

theorem clear_valueAt? (k : String) (es : List (Value × Value)) (h : Clear G es) :
    Clear G (Play.valueAt? k es) := by
  fun_induction Play.valueAt? k es with
  | case1 => infer_instance
  | case2 s v rest hs =>
    have := (clear_pair.mp (clear_cons.mp h).1).2
    infer_instance
  | case3 s v rest hs ih => exact ih (clear_cons.mp h).2
  | case4 e rest he ih => exact ih (clear_cons.mp h).2

instance (m : Methods) (method : String) (payload : Value) (r : Address.Request) [hm : Clear G m]
    [hp : Clear G payload] : Clear G (m.target method payload r) := by
  unfold Methods.target
  split
  · infer_instance
  · split
    · next es _ =>
      have hes : Clear G es := ⟨clear_dict.mp hp.out⟩
      have (k : String) := clear_field k es hes
      infer_instance
    · have hfound : Clear G (if r.mode == "function" then m.find? method else none) := inferInstance
      split
      · next f hf =>
        rw [hf] at hfound
        have := hfound.of_some
        split
        · next es _ =>
          have hes : Clear G es := ⟨clear_dict.mp hp.out⟩
          infer_instance
        · infer_instance
      · infer_instance

instance (r : Registry) (e : Entry) [Clear G r] [Clear G e] : Clear G (r.add e) := by
  unfold Registry.add
  infer_instance

instance (r : Registry) (es : List Entry) [hr : Clear G r] [hes : Clear G es] : Clear G (r.addAll es) := by
  unfold Registry.addAll
  exact .foldl hes hr fun _ _ _ _ => inferInstance

instance (r : Registry) (name : String) [Clear G r] : Clear G (r.find? name) := by
  unfold Registry.find?
  infer_instance

instance (d : Address.Dispatcher) (name : String) : Clear G (d.methodNamed? name) := by
  unfold Address.Dispatcher.methodNamed?
  split
  · infer_instance
  · split
    · next ms _ _ =>
      cases ms.find? _ with
      | none => exact inferInstanceAs (Clear G (none : Option Entry))
      | some e => exact ⟨fun _ he => Option.mem_some.mp he ▸ ⟨trivial⟩⟩
    · infer_instance

instance (r : Resolver) (methods : String → Option Entry) (name : String) [Clear G r] [Clear G (methods name)] :
    Clear G (r.local? methods name) := by
  unfold Resolver.local?
  infer_instance

instance (r : Resolver) (name : String) [Clear G r] : Clear G (r.fallbacks? name) := by
  unfold Resolver.fallbacks? Resolver.fallback?
  have : Clear G (Resolver.remoteEntry name) := ⟨⟨trivial⟩⟩
  infer_instance

/-! ### Files -/

instance (files : Files) (path : String) [h : Clear G files] : Clear G (files.makeDirectory path) := by
  unfold Files.makeDirectory
  split
  · infer_instance
  · split
    · exact ⟨trivial⟩
    · split
      · exact ⟨trivial⟩
      · exact ⟨⟨h.out.out⟩⟩

instance (files : Files) (path text : String) [Clear G files] : Clear G (files.put path text) := by
  unfold Files.put
  have : Clear G (Content.bytes text.toUTF8.toList) := ⟨trivial⟩
  split
  · exact ⟨trivial⟩
  · exact ⟨show Clear G (files.entries.put _ _) from inferInstance⟩

theorem clear_filesWrite (files : Files) (base : Option String) (path : String) (data : Tree) [h : Clear G files] :
    Clear G (files.write base path data).2 := by
  unfold Files.write
  extract_lets place parent text
  have hmade : Clear G (if parent.isEmpty then .ok files else files.makeDirectory parent) := inferInstance
  clear_value text
  split
  · exact h
  · next fs hfs =>
    rw [hfs] at hmade
    have hfs := hmade.of_ok
    split
    · exact hfs
    · next shown =>
      have hput : Clear G (fs.put place shown) := inferInstance
      split
      · next fs' hfs' =>
        rw [hfs'] at hput
        exact hput.of_ok
      · exact hfs

/-! ### Parameters of built-in functions -/

instance (b : Builtin) (a : Arguments) [Clear G a] : Clear G (Play.Given.ofArguments b a) := by
  unfold Play.Given.ofArguments
  exact ⟨⟨inferInstance, inferInstance⟩⟩

instance (g : Play.Given) (name : String) [Clear G g] : Clear G (g.value? name) := by
  unfold Play.Given.value?
  infer_instance

instance (g : Play.Given) (name : String) [Clear G g] : Clear G (g.value name) := by
  unfold Play.Given.value
  infer_instance

instance (g : Play.Given) (name : String) (v : Value) [Clear G g] [Clear G v] : Clear G (g.valueOr name v) := by
  unfold Play.Given.valueOr
  infer_instance

end

end Conductor
