import Conductor.Proofs.Document.Encoding
import Conductor.Proofs.Run.Forms

/-!
# Documents that a program hands on

What is true of a document that comes in and goes out is seen here in a program: it parses a
text and writes it again, it reads a file and writes another, it gives a document to a method
of a handler, in a call or in a command, or to the orchestrator.
-/

set_option autoImplicit false

namespace Conductor

open Syntax (Expr)

def Machine.seeking (m : Machine) (path : String) : Machine :=
  { m with world := { m.world with sought := path :: m.world.sought } }

def Machine.withFiles (m : Machine) (files : Files) : Machine := { m with world := { m.world with files := files } }

namespace Play

theorem normalize_document {m : Machine} {v : Value} {d : Tree} (hv : m.world.store.tree v = .ok d) (hd : d.Document) :
    ∃ w store, normalize v m = .done w (m.withStore store) ∧ store.Carries w d := by
  obtain ⟨w, store, hnormal, hcarries⟩ := Store.normalize_document hv hd
  refine ⟨w, store, ?_, hcarries⟩
  have hact : Memory.normalize v { scope := m.session.scope, store := m.world.store } =
      .ok w { scope := m.session.scope, store := store } := by
    simp only [Memory.normalize, Memory.withStore, bind, EStateM.bind, Memory.get_apply, hnormal]
    rfl
  simp only [normalize, memory, hact]
  rfl

theorem plant_document {m : Machine} {d : Tree} (hd : d.Document) :
    ∃ v, plant d m = .done v m ∧ v.Spells d := by
  obtain ⟨v, hplant, hshows⟩ := Store.plant_outside hd.outside m.world.store
  refine ⟨v, ?_, hshows⟩
  have hact : Memory.plant d { scope := m.session.scope, store := m.world.store } =
      .ok v { scope := m.session.scope, store := m.world.store } := by
    simp only [Memory.plant, Memory.withStore, bind, EStateM.bind, Memory.get_apply, hplant]
    rfl
  simp only [plant, memory, hact]

/-! ## Texts and files -/

theorem jsonParse_document {s : String} {d : Tree} (hs : Json.parse s = .ok d) (hd : d.Document) (m : Machine) :
    ∃ v, builtin .jsonParse { placed := [.text s] } m = .done v m ∧ v.Spells d := by
  obtain ⟨v, hplant, hshows⟩ := plant_document (m := m) hd
  refine ⟨v, ?_, hshows⟩
  have hread (g : Given) (hg : tree (g.value "text") m = .done (.text s) m) : jsonParse g m = plant d m := by
    have hparse : (do Json.parse (← (Tree.text s).shown)) = .ok d := hs
    simp only [jsonParse, Run.bind_apply, hg, Step.bind, Run.pure_apply, hparse]
  exact (hread _ rfl).trans hplant

theorem jsonStringify_document {m : Machine} {v : Value} {d : Tree} {out : String} (hv : m.world.store.Carries v d)
    (hd : d.Document) (hout : Json.write .flat d.recast = .ok out) :
    builtin .jsonStringify { placed := [v] } m = .done (.text out) m := by
  obtain ⟨r, hr, hv⟩ := hv
  have htext : Structured.serialize r "json" false = .ok out := by
    rw [Structured.serialize_decoded hd hr]
    change (d.recast.plain >>= fun t => Structured.write t false .json) = _
    rw [hd.recast.plain]
    exact hout
  change (tree v m).bind (fun t => (liftE (Structured.serialize t "json" false) >>= fun s => pure (.text s) : Play Value)) = _
  rw [tree_apply hv]
  simp only [Step.bind, Run.bind_apply, htext, liftE_ok, Run.pure_apply]

theorem eval_parsed_stringified {o : Outer} {e : Expr} {m m₁ : Machine} {s out : String} {d : Tree}
    (hm : m.session.resolver.builtins = Registry.builtins) (he : eval o e m = .done (.text s) m₁)
    (hs : Json.parse s = .ok d) (hd : d.Document) (hout : Json.write .flat d.recast = .ok out) (p q : Syntax.Pos) :
    ∃ m', eval o (.call "JSON_STRINGIFY" [(none, .call "JSON_PARSE" [(none, e)] p)] q) m = .done (.text out) m' := by
  obtain ⟨v, hparse, hshows⟩ := jsonParse_document hs hd (m₁.inCall ⟨"JSON_PARSE", [.text s]⟩)
  obtain ⟨w, store, hnormal, hw⟩ := normalize_document (m := m₁.inCall ⟨"JSON_PARSE", [.text s]⟩) (hshows _) hd
  have hinner := eval_builtin o (b := .jsonParse) rfl hm rfl (evalArgs_one he) rfl hparse hnormal p
  have hwrite := jsonStringify_document (m := ((m₁.inCall ⟨"JSON_PARSE", [.text s]⟩).withStore store).outOfCall.inCall
    ⟨"JSON_STRINGIFY", [w]⟩) hw hd hout
  exact ⟨_, eval_builtin o (b := .jsonStringify) rfl hm rfl (evalArgs_one hinner) rfl hwrite rfl q⟩

theorem fileRead_document {m : Machine} {path : String} {d : Tree}
    (hread : m.world.files.read m.session.sourceDir path = .ok d) (hd : d.Document) :
    ∃ v, builtin .fileRead { placed := [.text path] } m =
        .done v (m.seeking (m.world.files.resolve m.session.sourceDir path)) ∧ v.Spells d := by
  obtain ⟨v, hplant, hshows⟩ := plant_document (m := m.seeking (m.world.files.resolve m.session.sourceDir path)) hd
  refine ⟨v, ?_, hshows⟩
  have hpath : text ((Given.ofArguments .fileRead { placed := [.text path] }).value "path") m = .done path m := rfl
  change fileRead _ m = _
  simp only [fileRead, seek, Run.bind_apply, hpath, Step.bind, world_apply, session_apply, modifyWorld_apply, hread, liftE_ok]
  exact hplant

theorem fileWrite_document {m : Machine} {path out : String} {v : Value} {d : Tree} {files : Files}
    (hv : m.world.store.Carries v d) (hd : d.Document)
    (hformat : (Structured.formatForPath (m.world.files.resolve m.session.sourceDir path)).isSome)
    (hwrite : m.world.files.write m.session.sourceDir path d.recast = (.ok out, files)) :
    builtin .fileWrite { placed := [.text path, v] } m = .done (.text out) (m.withFiles files) := by
  obtain ⟨r, hr, hv⟩ := hv
  have hpath : text ((Given.ofArguments .fileWrite { placed := [.text path, v] }).value "path") m = .done path m := rfl
  have hdata : (Given.ofArguments .fileWrite { placed := [.text path, v] }).value "data" = v := rfl
  change fileWrite _ m = _
  simp only [fileWrite, hdata, Run.bind_apply, hpath, Step.bind, tree_apply hv, world_apply, session_apply,
    Files.write_decoded hd hr _ _ _ hformat, hwrite, modifyWorld_apply, liftE_ok, Run.pure_apply, Machine.withFiles]

theorem eval_read_written {o : Outer} {e e' : Expr} {m m₁ m₂ : Machine} {source target out : String} {d : Tree}
    {files : Files} (hm : m.session.resolver.builtins = Registry.builtins) (he' : eval o e' m = .done (.text target) m₁)
    (hm₁ : m₁.session.resolver.builtins = Registry.builtins) (he : eval o e m₁ = .done (.text source) m₂)
    (hread : m₂.world.files.read m₂.session.sourceDir source = .ok d) (hd : d.Document)
    (hformat : (Structured.formatForPath (m₂.world.files.resolve m₂.session.sourceDir target)).isSome)
    (hwrite : m₂.world.files.write m₂.session.sourceDir target d.recast = (.ok out, files)) (p q : Syntax.Pos) :
    ∃ m', eval o (.call "FILE_WRITE" [(none, e'), (none, .call "FILE_READ" [(none, e)] p)] q) m = .done (.text out) m' ∧
      m'.world.files = files := by
  obtain ⟨v, hin, hshows⟩ := fileRead_document (m := m₂.inCall ⟨"FILE_READ", [.text source]⟩) hread hd
  obtain ⟨w, store, hnormal, hw⟩ := normalize_document (hshows _) hd
  have hinner := eval_builtin o (b := .fileRead) rfl hm₁ rfl (evalArgs_one he) rfl hin hnormal p
  have hout := fileWrite_document (m := (((m₂.inCall ⟨"FILE_READ", [.text source]⟩).seeking
    (m₂.world.files.resolve m₂.session.sourceDir source)).withStore store).outOfCall.inCall
    ⟨"FILE_WRITE", [.text target, w]⟩) hw hd hformat hwrite
  exact ⟨_, eval_builtin o (b := .fileWrite) rfl hm rfl (evalArgs_two he' hinner) rfl hout rfl q, rfl⟩

/-! ## Arguments for others -/

/-- Every argument of a request goes out as the document that it carries. -/
theorem plain_document {m : Machine} {v : Value} {d : Tree} (hv : m.world.store.Carries v d) (hd : d.Document) :
    ∃ p, plain v m = .done p m ∧ p.Spells d.recast := by
  obtain ⟨p, hp, hspells⟩ := hv.plain hd
  exact ⟨p, plain_apply hp, hspells⟩

theorem mapM_of_forall₂ {α β γ : Type} {f : α → Play β} {m : Machine} {R : α → γ → Prop} {S : β → γ → Prop} {as : List α}
    {cs : List γ} (h : List.Forall₂ R as cs) (hf : ∀ a c, R a c → ∃ b, f a m = .done b m ∧ S b c) :
    ∃ bs, as.mapM f m = .done bs m ∧ List.Forall₂ S bs cs := by
  induction h with
  | nil => exact ⟨[], rfl, .nil⟩
  | @cons a c as cs ha _ ih =>
    obtain ⟨b, hb, hS⟩ := hf a c ha
    obtain ⟨bs, hbs, hSs⟩ := ih
    refine ⟨b :: bs, ?_, .cons hS hSs⟩
    simp only [List.mapM_cons, Run.bind_apply, hb, hbs, Step.bind, Run.pure_apply]

/-- The message that calls a function of the orchestrator. -/
def remoteMessage (name : String) (placed : List Tree) (named : List (String × Tree)) : Tree :=
  .dict [(.text "type", .text "call"), (.text "function", .text name), (.text "args", .list placed),
    (.text "kwargs", .dict (Tree.textKeys named))]

theorem callRemote_documents (channel : Channel) (name : String) {a : Arguments} {m : Machine} {placed : List Tree}
    {named : List (String × Tree)} (hplaced : List.Forall₂ (fun v d => m.world.store.Carries v d ∧ d.Document) a.placed placed)
    (hnamed : List.Forall₂ (fun e e' => e.1 = e'.1 ∧ m.world.store.Carries e.2 e'.2 ∧ e'.2.Document) a.named named) :
    ∃ k : Value → Play Value, callRemote channel name a m =
      (ask channel (remoteMessage name (placed.map Tree.recast) (named.map fun e => (e.1, e.2.recast))) >>= k) m := by
  obtain ⟨ps, hps, hspells⟩ := mapM_of_forall₂ (f := plain) (m := m) (S := fun p d => p.Spells d.recast) hplaced
    fun v d h => plain_document h.1 h.2
  obtain ⟨es, hes, hentries⟩ := mapM_of_forall₂ (m := m)
    (f := fun e => do return (Value.text e.1, ← plain e.2)) (S := fun p e => p.1 = .text e.1 ∧ p.2.Spells e.2.recast) hnamed fun e e' h => by
      obtain ⟨p, hp, hspells⟩ := plain_document h.2.1 h.2.2
      refine ⟨(.text e.1, p), ?_, congrArg Value.text h.1, hspells⟩
      simp only [Run.bind_apply, hp, Step.bind, Run.pure_apply]
  have hmessage : m.world.store.tree (.dict [(.text "type", .text "call"), (.text "function", .text name),
      (.text "args", .list ps), (.text "kwargs", .dict es)]) =
        .ok (remoteMessage name (placed.map Tree.recast) (named.map fun e => (e.1, e.2.recast))) := by
    have hfields : List.Forall₂ (fun (p : Value × Value) (e : String × Tree) => p.1 = .text e.1 ∧ p.2.Spells e.2)
        [(.text "type", .text "call"), (.text "function", .text name), (.text "args", .list ps), (.text "kwargs", .dict es)]
        [("type", .text "call"), ("function", .text name), ("args", .list (placed.map Tree.recast)),
          ("kwargs", .dict (Tree.textKeys (named.map fun e => (e.1, e.2.recast))))] :=
      .cons ⟨rfl, fun _ => rfl⟩ (.cons ⟨rfl, fun _ => rfl⟩
        (.cons ⟨rfl, Value.spells_list (List.forall₂_map_right_iff.mpr hspells)⟩
          (.cons ⟨rfl, Value.spells_dict (List.forall₂_map_right_iff.mpr hentries)⟩ .nil)))
    exact Value.spells_dict hfields _
  unfold callRemote
  simp only [Run.bind_apply, hps, hes, Step.bind, tree_apply hmessage]
  exact ⟨_, rfl⟩

/-- The data of a command: the arguments with names, and those by place under the parameters that no name has taken. What
is left over is a list of its own. -/
def commandData (params : List String) (named : Table String Tree) (placed : List Tree) : Table String Tree :=
  let free := params.filter fun p => !named.contains p
  let table := Table.putAll named (free.zip placed)
  let surplus := placed.drop free.length
  if surplus.isEmpty then table else table.put "args" (.list surplus)

/-- Arguments are evaluated one after the other, each to a value that carries a document. -/
inductive Brings (G : World → World → Prop) (o : Outer) :
    List Syntax.Arg → Machine → List (Option String × Tree) → Machine → Prop
  | nil {m : Machine} : Brings G o [] m [] m
  | cons {a : Syntax.Arg} {rest : List Syntax.Arg} {v : Value} {d : Tree} {docs : List (Option String × Tree)}
      {m m₁ m₂ : Machine} : (eval o a.2 m).Comes (Interlude G) (.done v m₁) → m₁.world.store.Carries v d → d.Document →
      Brings G o rest m₁ docs m₂ → Brings G o (a :: rest) m ((a.1, d) :: docs) m₂

variable {G : World → World → Prop} {o : Outer} {m m' : Machine} {docs : List (Option String × Tree)}

/-- The data of each argument is taken out where it is evaluated, before the next can change it. -/
theorem Brings.evaluates {args : List Syntax.Arg} (h : Brings G o args m docs m') :
    ∃ ops, Evaluates G o args m ops m' ∧ List.Forall₂ (fun t e => t.name = e.1 ∧ t.early.Spells e.2.recast) ops docs := by
  induction h with
  | nil => exact ⟨[], .nil, .nil⟩
  | @cons a rest v d docs m m₁ m₂ heval hcarries hd _ ih =>
    obtain ⟨ops, hops, hdocs⟩ := ih
    obtain ⟨p, hp, hspells⟩ := hcarries.plain hd
    exact ⟨⟨a.1, v, p, p⟩ :: ops, .cons heval rfl hp hops, .cons ⟨rfl, hspells⟩ hdocs⟩

theorem requestPayload_spells {params : List String} {t : Table String Value} {t' : Table String Tree} {vs : List Value}
    {ts : List Tree} (ht : List.Forall₂ (fun e e' => e.1 = e'.1 ∧ e.2.Spells e'.2) t t') (hvs : List.Forall₂ Value.Spells vs ts) :
    (payloadOf (requestPayload params t vs)).Spells (.dict (Tree.textKeys (commandData params t' ts))) := by
  have hfree : (params.filter fun p => !t.contains p) = params.filter fun p => !t'.contains p := by
    have hkeys : t'.keys = t.keys := Table.keys_of_forall₂ (ht.imp fun _ _ h => ⟨h.1.symm, h.2⟩)
    refine List.filter_congr fun p _ => ?_
    rw [Bool.not_inj_iff, Bool.eq_iff_iff, Table.contains_iff, Table.contains_iff, hkeys]
  have hall : List.Forall₂ (fun e e' => e.1 = e'.1 ∧ e.2.Spells e'.2) (requestPayload params t vs) (commandData params t' ts) := by
    have htable (free : List String) := Table.forall₂_putAll ht (Table.forall₂_zip hvs free)
    unfold requestPayload commandData
    rw [hfree]
    extract_lets free table surplus table' surplus'
    have hsurplus : List.Forall₂ Value.Spells surplus surplus' := List.forall₂_drop _ hvs
    by_cases hempty : surplus' = []
    · have hempty' : surplus = [] := by
        rw [hempty] at hsurplus
        exact List.forall₂_nil_right_iff.mp hsurplus
      simp only [hempty, hempty', List.isEmpty_nil, if_true]
      exact htable free
    · have hempty' : surplus ≠ [] := by
        rintro h
        rw [h] at hsurplus
        exact hempty (List.forall₂_nil_left_iff.mp hsurplus)
      simp only [List.isEmpty_iff, hempty, hempty', if_false]
      exact Table.forall₂_put (htable free) "args" (Value.spells_list hsurplus)
  exact Value.spells_dict (List.forall₂_map_left_iff.mpr (hall.imp fun _ _ h => ⟨congrArg Value.text h.1, h.2⟩))

theorem named_spells {ops : List Operand} (h : List.Forall₂ (fun t e => t.name = e.1 ∧ t.early.Spells e.2.recast) ops docs) :
    List.Forall₂ (fun e e' => e.1 = e'.1 ∧ e.2.Spells e'.2) (Supplied.named (Operand.supplied Operand.early ops))
      (docs.filterMap fun e => e.1.map fun name => (name, e.2.recast)) := by
  induction h with
  | nil => exact .nil
  | @cons t e ops docs ht _ ih =>
    cases hname : e.1 with
    | none => simpa [Supplied.named, Operand.supplied, ht.1, hname] using ih
    | some name => simpa [Supplied.named, Operand.supplied, ht.1, hname] using And.intro ht.2 ih

theorem placed_spells {ops : List Operand} (h : List.Forall₂ (fun t e => t.name = e.1 ∧ t.early.Spells e.2.recast) ops docs) :
    List.Forall₂ Value.Spells (Supplied.placed (Operand.supplied Operand.early ops))
      ((docs.filter fun e => e.1.isNone).map fun e => e.2.recast) := by
  induction h with
  | nil => exact .nil
  | @cons t e ops docs ht _ ih =>
    cases hname : e.1 with
    | none => simpa [Supplied.placed, Operand.supplied, ht.1, hname] using And.intro ht.2 ih
    | some name => simpa [Supplied.placed, Operand.supplied, ht.1, hname] using ih

theorem sendForm_documents {c : Syntax.CommandForm} (h : Brings G o c.args m docs m') (line : Nat) :
    ∃ data, Runs G (dispatch c.method data (some "function") (some line) none none) m' (sendForm o c line) m ∧
      data.Spells (.dict (Tree.textKeys (commandData (m.session.dispatcher.methodParams c.method none)
        (Table.ofEntries (docs.filterMap fun e => e.1.map fun name => (name, e.2.recast)))
        ((docs.filter fun e => e.1.isNone).map fun e => e.2.recast)))) := by
  obtain ⟨ops, hops, hdocs⟩ := h.evaluates
  exact ⟨_, sendForm_runs hops line,
    requestPayload_spells (Table.forall₂_putAll .nil (named_spells hdocs)) (placed_spells hdocs)⟩

end Play

/-- What a program does with a document that it only hands on. Taking it out after bringing it in gives the document with
an empty list for each empty dictionary, and that is the document itself exactly if it holds no empty dictionary. The same
document is in a text that is parsed and written again, in a file that is read and written again, in the payload of a
method for the arguments that its parameters take in a call, in the message of a remote call, and in the payload of a
command for all its arguments. What has been parsed is always written again, and a file takes every document whose integers
have texts if there can be a file at its path. -/
theorem documents_pass_through :
    (∀ d : Tree, d.Document → ∃ r, d.normalize = .ok r ∧ r.plain = .ok d.recast) ∧
    (∀ d : Tree, d.Document → ((∃ r, d.normalize = .ok r ∧ r.plain = .ok d) ↔ d.Filled) ∧ (d.recast = d ↔ d.Filled)) ∧
    (∀ (d : Tree) (store : Store) (v : Value), d.Document → store.tree v = .ok d →
      ∃ v' store' p, Store.normalize v store = .ok (v', store') ∧ store'.Carries v' d ∧
        store'.plain v' = .ok p ∧ p.Spells d.recast) ∧
    (∀ (d : Tree) (o : Outer) (e : Expr) (m m₁ : Machine) (s out : String) (p q : Syntax.Pos), d.Document →
      m.session.resolver.builtins = Registry.builtins → Play.eval o e m = .done (.text s) m₁ → Json.parse s = .ok d →
      Json.write .flat d.recast = .ok out →
      ∃ m', Play.eval o (.call "JSON_STRINGIFY" [(none, .call "JSON_PARSE" [(none, e)] p)] q) m = .done (.text out) m') ∧
    (∀ (d : Tree) (o : Outer) (e e' : Expr) (m m₁ m₂ : Machine) (source target out : String) (files : Files)
      (p q : Syntax.Pos), d.Document →
      m.session.resolver.builtins = Registry.builtins → Play.eval o e' m = .done (.text target) m₁ →
      m₁.session.resolver.builtins = Registry.builtins → Play.eval o e m₁ = .done (.text source) m₂ →
      m₂.world.files.read m₂.session.sourceDir source = .ok d →
      (Structured.formatForPath (m₂.world.files.resolve m₂.session.sourceDir target)).isSome →
      m₂.world.files.write m₂.session.sourceDir target d.recast = (.ok out, files) →
      ∃ m', Play.eval o (.call "FILE_WRITE" [(none, e'), (none, .call "FILE_READ" [(none, e)] p)] q) m =
        .done (.text out) m' ∧ m'.world.files = files) ∧
    (∀ (store : Store) (params : List String) (a : Arguments), a.placed.length ≤ params.length →
      (∀ v ∈ a.all, ∃ d : Tree, d.Document ∧ store.Carries v d) →
      ∃ table, a.payload store params = .ok table ∧
        List.Forall₂ (fun e e' => e'.1 = e.1 ∧ ∀ d : Tree, d.Document → store.Carries e.2 d → e'.2.Spells d.recast)
          (Table.putAll (params.zip a.placed) a.named) table) ∧
    (∀ (channel : Channel) (name : String) (a : Arguments) (m : Machine) (placed : List Tree) (named : List (String × Tree)),
      List.Forall₂ (fun v d => m.world.store.Carries v d ∧ d.Document) a.placed placed →
      List.Forall₂ (fun e e' => e.1 = e'.1 ∧ m.world.store.Carries e.2 e'.2 ∧ e'.2.Document) a.named named →
      ∃ k : Value → Play Value, Play.callRemote channel name a m =
        (Play.ask channel (Play.remoteMessage name (placed.map Tree.recast) (named.map fun e => (e.1, e.2.recast))) >>= k) m) ∧
    (∀ (G : World → World → Prop) (o : Outer) (c : Syntax.CommandForm) (m m' : Machine) (docs : List (Option String × Tree))
      (line : Nat), Play.Brings G o c.args m docs m' →
      ∃ data : Value, Runs G (Play.dispatch c.method data (some "function") (some line) none none) m' (Play.sendForm o c line) m ∧
        data.Spells (.dict (Tree.textKeys (Play.commandData (m.session.dispatcher.methodParams c.method none)
          (Table.ofEntries (docs.filterMap fun e => e.1.map fun name => (name, e.2.recast)))
          ((docs.filter fun e => e.1.isNone).map fun e => e.2.recast))))) ∧
    (∀ (d : Tree) (s : String), d.Document → Json.parse s = .ok d → ∃ out, Json.write .flat d.recast = .ok out) ∧
    ∀ (d : Tree) (fs : Files) (base : Option String) (locator : String) (f : Syntax.Format), d.Document →
      Structured.formatForPath (fs.resolve base locator) = some f →
      ((∃ out files, fs.write base locator d.recast = (.ok out, files)) ↔
        fs.Admits (fs.resolve base locator) ∧ ¬ d.Oversized) ∧
      ∀ out files, fs.write base locator d.recast = (.ok out, files) → out = fs.resolve base locator ∧
        ∃ text, Structured.write d.recast true f = .ok text ∧ files.content? out = some (.bytes text.toUTF8.toList) := by
  refine ⟨fun d hd => hd.plain_normalize, fun d hd => ⟨?_, hd.recast_eq_iff⟩, ?_, ?_, ?_, ?_, ?_, ?_, ?_, ?_⟩
  · obtain ⟨r, hr, hplain⟩ := hd.plain_normalize
    rw [← hd.recast_eq_iff]
    constructor
    · rintro ⟨r', hr', hplain'⟩
      obtain rfl : r = r' := Except.ok.inj (hr.symm.trans hr')
      exact Except.ok.inj (hplain.symm.trans hplain')
    · intro hsame
      exact ⟨r, hr, by rw [hplain, hsame]⟩
  · intro d store v hd hv
    obtain ⟨v', store', hnormal, hcarries⟩ := Store.normalize_document hv hd
    obtain ⟨p, hp, hspells⟩ := hcarries.plain hd
    exact ⟨v', store', p, hnormal, hcarries, hp, hspells⟩
  · intro d o e m m₁ s out p q hd hm he hs hout
    exact Play.eval_parsed_stringified hm he hs hd hout p q
  · intro d o e e' m m₁ m₂ source target out files p q hd hm he' hm₁ he hread hformat hwrite
    exact Play.eval_read_written hm he' hm₁ he hread hd hformat hwrite p q
  · intro store params a hfit h
    exact Arguments.payload_documents hfit h
  · intro channel name a m placed named hplaced hnamed
    exact Play.callRemote_documents channel name hplaced hnamed
  · intro G o c m m' docs line hbrings
    exact Play.sendForm_documents hbrings line
  · intro d s hd hs
    rw [← Fails.not_iff, Json.write_fails _ hd.recast, hd.recast_oversized]
    exact Json.parse_sized hs
  · intro d fs base locator f hd hf
    refine ⟨?_, fun out files => Files.content_of_write hd.recast hf⟩
    rw [Files.write_document_iff hd.recast (hf ▸ rfl), hd.recast_oversized]

/-- A dictionary with a list of a text and an empty list. -/
def Tree.sampleDocument : Tree := .dict (textKeys [("a", .list [.text "x", .list []])])

theorem Tree.sampleDocument_document : sampleDocument.Document := by
  refine .dict _ (by simp [Table.keys]) ?_
  simp only [List.forall_mem_cons]
  refine ⟨.list _ ?_, by simp⟩
  simp only [List.forall_mem_cons]
  exact ⟨.text "x", .list [] (by simp), by simp⟩

def Tree.sampleText : String := "\x7b\"a\": [\"x\", []]\x7d"

def Tree.isSample : Tree → Bool
  | .dict [(.text k, .list [.text v, .list []])] => k == "a" && v == "x"
  | _ => false

theorem Tree.parse_sampleText : Json.parse sampleText = .ok sampleDocument := by
  have hsample : (Json.parse sampleText).toOption.any isSample = true := by decide +kernel
  obtain ⟨d, hd, hsample⟩ := (Option.any_eq_true _ _).mp hsample
  cases hparse : Json.parse sampleText with
  | error f =>
    rw [hparse] at hd
    cases hd
  | ok t =>
    rw [hparse] at hd
    cases hd
    unfold isSample at hsample
    split at hsample
    · simp only [Bool.and_eq_true, beq_iff_eq] at hsample
      rw [hsample.1, hsample.2]
      rfl
    · cases hsample

theorem sampleDocument_passes_through :
    (∃ r, Tree.sampleDocument.normalize = .ok r ∧ r.plain = .ok Tree.sampleDocument.recast) ∧
      ∃ m', Play.eval (Play.outer Play.horizon) (.call "JSON_STRINGIFY" [(none, .call "JSON_PARSE"
        [(none, .literal (.text Tree.sampleText false) ⟨1, 1⟩)] ⟨1, 1⟩)] ⟨1, 1⟩) {} = .done (.text Tree.sampleText) m' := by
  obtain ⟨hback, -, -, htext, -⟩ := documents_pass_through
  have heval : Play.eval (Play.outer Play.horizon) (.literal (.text Tree.sampleText false) ⟨1, 1⟩) {} =
      .done (.text Tree.sampleText) {} := by
    rw [Play.eval]
    rfl
  exact ⟨hback _ Tree.sampleDocument_document, htext _ _ _ _ _ _ _ _ _ Tree.sampleDocument_document rfl heval
    Tree.parse_sampleText rfl⟩

/-- An empty dictionary does not come back. -/
theorem empty_dictionary_returns_as_list :
    ¬ ∀ d : Tree, d.Document → ∃ r, d.normalize = .ok r ∧ r.plain = .ok d := by
  intro h
  obtain ⟨r, hr, hplain⟩ := h (.dict []) (.dict [] (by simp [Table.keys]) (by simp))
  cases hr
  cases hplain

end Conductor
