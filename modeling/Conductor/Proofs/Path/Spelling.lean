import Conductor.Module.Location
import Conductor.Proofs.Text.Pieces
import Conductor.Proofs.Text.Separator
import Mathlib.Logic.Relation
import Mathlib.Tactic.ByContra

/-!
# Spellings of a path

A locator spells a path from the root: its components are those of the base or of the home
directory and its own, with empty ones, dots and double dots among them. Two spellings are of one
path if components can be taken out and put in again, as a text is shortened, until one is the
other. Locators that name one path are resolved to one text, and what is resolved stays as it is,
except below the home directory: what follows a tilde is left as it is written.
-/

set_option autoImplicit false

namespace Conductor.Path

open Text (pieces)

/-! ## Components -/

structure IsName (c : String) : Prop where
  nonempty : c ≠ ""
  notHere : c ≠ "."
  notUp : c ≠ ".."
  unbroken : '/' ∉ c.toList

/-- One component, or a name with the double dot after it, taken out of a path from the root. -/
inductive Shortens : List String → List String → Prop
  | blank (a b : List String) : Shortens (a ++ "" :: b) (a ++ b)
  | here (a b : List String) : Shortens (a ++ "." :: b) (a ++ b)
  | back {c : String} (hc : IsName c) (a b : List String) : Shortens (a ++ c :: ".." :: b) (a ++ b)
  | root (b : List String) : Shortens (".." :: b) b

def names (cs : List String) : List String := (cs.foldl (pushComponent true) []).reverse

variable {a b c p : String} {as bs cs ns : List String}

theorem pushComponent_name (h : IsName c) (stack : List String) : pushComponent true stack c = c :: stack := by
  simp [pushComponent, h.nonempty, h.notHere, h.notUp]

theorem pushComponent_up (h : IsName c) (stack : List String) : pushComponent true (c :: stack) ".." = stack := by
  simp [pushComponent, h.notUp]

theorem names_eq_of_shortens (h : Shortens as bs) : names as = names bs := by
  cases h with
  | blank a b => simp [names, pushComponent]
  | here a b => simp [names, pushComponent]
  | back hc a b => simp [names, pushComponent_name hc, pushComponent_up hc]
  | root b => simp [names, pushComponent]

theorem shortens_foldl {stack : List String} (hstack : ∀ c ∈ stack, IsName c) (h : ∀ c ∈ cs, '/' ∉ c.toList) :
    Relation.ReflTransGen Shortens (stack.reverse ++ cs) (cs.foldl (pushComponent true) stack).reverse ∧
      ∀ c ∈ cs.foldl (pushComponent true) stack, IsName c := by
  induction cs generalizing stack with
  | nil => simpa using ⟨.refl, hstack⟩
  | cons c cs ih =>
    have hcs : ∀ c ∈ cs, '/' ∉ c.toList := fun d hd => h d (List.mem_cons_of_mem _ hd)
    by_cases hblank : c = ""
    · subst hblank
      have hrest := ih hstack hcs
      exact ⟨.head (.blank _ _) hrest.1, hrest.2⟩
    by_cases hhere : c = "."
    · subst hhere
      have hrest := ih hstack hcs
      exact ⟨.head (.here _ _) hrest.1, hrest.2⟩
    by_cases hup : c = ".."
    · subst hup
      cases stack with
      | nil =>
        have hrest := ih hstack hcs
        exact ⟨.head (.root _) hrest.1, hrest.2⟩
      | cons top stack =>
        have htop := hstack top List.mem_cons_self
        have hrest := ih (fun d hd => hstack d (List.mem_cons_of_mem _ hd)) hcs
        rw [List.foldl_cons, pushComponent_up htop]
        refine ⟨.head ?_ hrest.1, hrest.2⟩
        simpa using Shortens.back htop stack.reverse cs
    · have hname : IsName c := ⟨hblank, hhere, hup, h c List.mem_cons_self⟩
      rw [List.foldl_cons, pushComponent_name hname]
      have hrest := @ih (c :: stack) (List.forall_mem_cons.2 ⟨hname, hstack⟩) hcs
      simpa using hrest

theorem shortens_names (h : ∀ c ∈ cs, '/' ∉ c.toList) : Relation.ReflTransGen Shortens cs (names cs) :=
  (shortens_foldl (List.forall_mem_nil IsName) h).1

theorem names_isName (h : ∀ c ∈ cs, '/' ∉ c.toList) : ∀ c ∈ names cs, IsName c := fun c hc =>
  (shortens_foldl (List.forall_mem_nil IsName) h).2 c (List.mem_reverse.1 hc)

theorem names_of_isName (h : ∀ c ∈ ns, IsName c) : names ns = ns := by
  have hfold (stack : List String) : ns.foldl (pushComponent true) stack = ns.reverse ++ stack := by
    induction ns generalizing stack with
    | nil => rfl
    | cons c ns ih =>
      rw [List.foldl_cons, pushComponent_name (h c List.mem_cons_self), ih fun d hd => h d (List.mem_cons_of_mem _ hd)]
      simp
  simp [names, hfold]

@[simp] theorem names_blank (cs : List String) : names ("" :: cs) = names cs :=
  names_eq_of_shortens (.blank [] cs)

theorem names_eq_of_eqvGen (h : Relation.EqvGen Shortens as bs) : names as = names bs := by
  induction h with
  | rel x y h => exact names_eq_of_shortens h
  | refl x => rfl
  | symm x y _ ih => exact ih.symm
  | trans x y z _ _ ihx ihy => exact ihx.trans ihy

/-- Two lists of components are of one path exactly if the same names are left of them. -/
theorem eqvGen_shortens_iff (ha : ∀ c ∈ as, '/' ∉ c.toList) (hb : ∀ c ∈ bs, '/' ∉ c.toList) :
    Relation.EqvGen Shortens as bs ↔ names as = names bs := by
  refine ⟨names_eq_of_eqvGen, fun h => ?_⟩
  -- both shorten to the names that are left of them
  have hleft := Relation.EqvGen.reflTransGen_le_eqvGen _ _ _ (shortens_names ha)
  have hright := Relation.EqvGen.reflTransGen_le_eqvGen _ _ _ (shortens_names hb)
  rw [← h] at hright
  exact .trans _ _ _ hleft (.symm _ _ hright)

/-! ## Texts -/

theorem pieces_append (a b : String) : pieces "/" (a ++ "/" ++ b) = pieces "/" a ++ pieces "/" b := by
  simp [pieces, Text.piecesFrom_append]

theorem pieces_unbroken (h : '/' ∉ a.toList) : pieces "/" a = [a] := by
  simp [pieces, Text.piecesFrom_of_notMem h]

theorem pieces_slash (a : String) : pieces "/" ("/" ++ a) = "" :: pieces "/" a := by
  have h := pieces_append "" a
  have hempty : pieces "/" "" = [""] := pieces_unbroken (by simp)
  rwa [String.empty_append, hempty] at h

theorem unbroken_of_mem_pieces (h : c ∈ pieces "/" p) : '/' ∉ c.toList := by
  obtain ⟨word, hword, rfl⟩ := List.mem_map.1 h
  have hfree := Text.notMem_of_mem_piecesFrom (List.not_mem_nil (a := '/')) hword
  rwa [String.toList_ofList]

theorem pieces_intercalate (hne : ns ≠ []) (h : ∀ c ∈ ns, IsName c) : pieces "/" ("/".intercalate ns) = ns := by
  induction ns with
  | nil => exact absurd rfl hne
  | cons c ns ih =>
    have hc := pieces_unbroken (h c List.mem_cons_self).unbroken
    cases ns with
    | nil => simpa using hc
    | cons d ns =>
      rw [String.intercalate_cons_cons, pieces_append, hc, ih (by simp) fun e he => h e (List.mem_cons_of_mem _ he)]
      rfl

theorem eq_of_pieces_eq (h : pieces "/" a = pieces "/" b) : a = b := by
  have hsep : "/" ≠ "" := by decide
  rw [← Text.intercalate_pieces hsep a, h, Text.intercalate_pieces hsep b]

theorem pieces_ne_nil (a : String) : pieces "/" a ≠ [] := by
  rw [pieces, Ne, List.map_eq_nil_iff]
  exact Text.piecesFrom_ne_nil _ _ _ _

theorem isName_names_pieces (p : String) : ∀ c ∈ names (pieces "/" p), IsName c :=
  names_isName fun _ => unbroken_of_mem_pieces

/-! ## Spellings -/

/-- A path as it is spelled out from the root. Two slashes in front are not one: they are another root. -/
structure Spelling where
  doubled : Bool
  components : List String

def doubledRoot (p : String) : Bool := Text.startsWith p "//" && !Text.startsWith p "///"

def Spelling.ofText (p : String) : Spelling := ⟨doubledRoot p, pieces "/" p⟩

def Spelling.text (σ : Spelling) : String :=
  (if σ.doubled then "//" else "/") ++ "/".intercalate (names σ.components)

/-- Two spellings of one path. -/
structure SamePath (σ τ : Spelling) : Prop where
  root : σ.doubled = τ.doubled
  components : Relation.EqvGen Shortens σ.components τ.components

def Spelling.Unbroken (σ : Spelling) : Prop := ∀ c ∈ σ.components, '/' ∉ c.toList

theorem Spelling.unbroken_ofText (p : String) : (Spelling.ofText p).Unbroken := fun _ => unbroken_of_mem_pieces

theorem startsWith_slash_intercalate (h : ∀ c ∈ ns, IsName c) : Text.startsWith ("/".intercalate ns) "/" = false := by
  cases ns with
  | nil => rfl
  | cons c ns =>
    have hc := h c List.mem_cons_self
    have hhead : ∃ x xs, c.toList = x :: xs ∧ x ≠ '/' := by
      cases hl : c.toList with
      | nil => exact absurd (String.toList_eq_nil_iff.1 hl) hc.nonempty
      | cons x xs =>
        have hx := hc.unbroken
        rw [hl, List.mem_cons, not_or] at hx
        exact ⟨x, xs, rfl, Ne.symm hx.1⟩
    obtain ⟨x, xs, hl, hx⟩ := hhead
    cases ns <;> simp [Text.startsWith, hl, List.isPrefixOf, Ne.symm hx]

namespace Spelling

variable {σ τ : Spelling}

theorem Unbroken.isName (h : σ.Unbroken) : ∀ c ∈ names σ.components, IsName c := names_isName h

theorem doubledRoot_root (h : Text.startsWith p "/" = false) (d : Bool) :
    doubledRoot ((if d then "//" else "/") ++ p) = d := by
  simp only [Text.startsWith] at h
  cases d <;> simp_all [doubledRoot, Text.startsWith, List.isPrefixOf]

theorem pieces_text (h : σ.Unbroken) : pieces "/" σ.text =
    "" :: (if σ.doubled then [""] else []) ++ (if names σ.components = [] then [""] else names σ.components) := by
  have hnames : pieces "/" ("/".intercalate (names σ.components)) =
      if names σ.components = [] then [""] else names σ.components := by
    by_cases hn : names σ.components = []
    · rw [if_pos hn, hn]
      exact pieces_unbroken (by simp)
    · rw [if_neg hn, pieces_intercalate hn h.isName]
  have hdoubled : ("//" : String) = "/" ++ "/" := rfl
  cases hd : σ.doubled with
  | false => simp [text, hd, pieces_slash, hnames]
  | true => simp only [text, hd, if_true, hdoubled, String.append_assoc, pieces_slash, hnames]; rfl

theorem doubled_ofText_text (h : σ.Unbroken) : (ofText σ.text).doubled = σ.doubled :=
  doubledRoot_root (startsWith_slash_intercalate h.isName) _

theorem names_ofText_text (h : σ.Unbroken) : names (ofText σ.text).components = names σ.components := by
  rw [ofText, pieces_text h]
  have hself := names_of_isName h.isName
  cases σ.doubled <;> by_cases hn : names σ.components = [] <;> simp_all

theorem text_ofText_text (h : σ.Unbroken) : (ofText σ.text).text = σ.text := by
  rw [text, doubled_ofText_text h, names_ofText_text h, text]

theorem samePath_iff (hσ : σ.Unbroken) (hτ : τ.Unbroken) :
    SamePath σ τ ↔ σ.doubled = τ.doubled ∧ names σ.components = names τ.components :=
  ⟨fun h => ⟨h.root, names_eq_of_eqvGen h.components⟩, fun h => ⟨h.1, (eqvGen_shortens_iff hσ hτ).2 h.2⟩⟩

/-- Two spellings have one text exactly if they are of one path. -/
theorem text_eq_iff (hσ : σ.Unbroken) (hτ : τ.Unbroken) : σ.text = τ.text ↔ SamePath σ τ := by
  rw [samePath_iff hσ hτ]
  constructor
  · intro h
    have hd := doubled_ofText_text hσ
    have hn := names_ofText_text hσ
    rw [h, doubled_ofText_text hτ] at hd
    rw [h, names_ofText_text hτ] at hn
    exact ⟨hd.symm, hn.symm⟩
  · rintro ⟨hd, hn⟩
    rw [text, text, hd, hn]

theorem samePath_ofText_text (h : σ.Unbroken) : SamePath σ (ofText σ.text) :=
  (samePath_iff h (unbroken_ofText _)).2 ⟨(doubled_ofText_text h).symm, (names_ofText_text h).symm⟩

theorem isAbsolute_text (σ : Spelling) : isAbsolute σ.text = true := by
  cases hd : σ.doubled <;> simp [isAbsolute, text, hd, Text.startsWith, List.isPrefixOf]

end Spelling

theorem startsWith_iff {start : String} : Text.startsWith p start = true ↔ ∃ rest, p = start ++ rest := by
  rw [Text.startsWith, List.isPrefixOf_iff_prefix]
  constructor
  · rintro ⟨rest, h⟩
    exact ⟨String.ofList rest, String.ext (by simp [← h])⟩
  · rintro ⟨rest, rfl⟩
    exact ⟨rest.toList, by simp⟩

theorem normalize_of_isAbsolute (h : isAbsolute p = true) : normalize p = (Spelling.ofText p).text := by
  have hne : p.isEmpty = false := by
    obtain ⟨rest, rfl⟩ := startsWith_iff.1 h
    simp
  have htext : (Spelling.ofText p).text.isEmpty = false := by
    cases hd : (Spelling.ofText p).doubled <;> simp [Spelling.text, hd]
  have hjoined : (if !isAbsolute p then "" else if Text.startsWith p "//" && !Text.startsWith p "///" then "//" else "/") ++
      "/".intercalate ((pieces "/" p).foldl (pushComponent (isAbsolute p)) []).reverse = (Spelling.ofText p).text := by
    rw [h]
    rfl
  simp only [normalize, hne, hjoined, htext]
  rfl

theorem names_append (as bs : List String) : names (as ++ bs) = (bs.foldl (pushComponent true) (names as).reverse).reverse := by
  simp [names]

theorem doubledRoot_append (h : Text.startsWith b "/" = false) : doubledRoot (a ++ b) = doubledRoot a := by
  have hlist (xs ys : List Char) (hy : ['/'].isPrefixOf ys = false) :
      (['/', '/'].isPrefixOf (xs ++ ys) && !List.isPrefixOf ['/', '/', '/'] (xs ++ ys)) =
        (['/', '/'].isPrefixOf xs && !List.isPrefixOf ['/', '/', '/'] xs) := by
    rcases xs with _ | ⟨x, _ | ⟨y, _ | ⟨z, xs⟩⟩⟩ <;> rcases ys with _ | ⟨u, ys⟩ <;>
      simp_all [List.isPrefixOf]
  simpa [doubledRoot, Text.startsWith] using hlist a.toList b.toList h

theorem endsWith_iff {stop : String} : Text.endsWith p stop = true ↔ ∃ rest, p = rest ++ stop := by
  rw [Text.endsWith, List.isSuffixOf_iff_suffix]
  constructor
  · rintro ⟨rest, h⟩
    exact ⟨String.ofList rest, String.ext (by simp [← h])⟩
  · rintro ⟨rest, rfl⟩
    exact ⟨rest.toList, by simp⟩

theorem isAbsolute_append (h : isAbsolute a = true) : isAbsolute (a ++ b) = true := by
  obtain ⟨rest, rfl⟩ := startsWith_iff.1 h
  exact startsWith_iff.2 ⟨rest ++ b, String.append_assoc⟩

theorem doubledRoot_append_of_concat {x : Char} {xs : List Char} (ha : a.toList = xs ++ [x]) (hx : x ≠ '/') (b : String) :
    doubledRoot (a ++ b) = doubledRoot a := by
  have hsplit : a = String.ofList xs ++ String.ofList [x] := String.ext (by simp [ha])
  have hstart (t : String) : Text.startsWith (String.ofList [x] ++ t) "/" = false := by
    simp [Text.startsWith, List.isPrefixOf, Ne.symm hx]
  have hself := hstart ""
  rw [String.append_empty] at hself
  rw [hsplit, String.append_assoc, doubledRoot_append (hstart b), doubledRoot_append hself]

theorem normalize_join (ha : isAbsolute a = true) (hb : isAbsolute b = false) :
    normalize (join a b) = Spelling.text ⟨doubledRoot a, pieces "/" a ++ pieces "/" b⟩ := by
  have hne : a.isEmpty = false := by
    obtain ⟨rest, rfl⟩ := startsWith_iff.1 ha
    simp
  cases hend : Text.endsWith a "/" with
  | true =>
    obtain ⟨front, rfl⟩ := endsWith_iff.1 hend
    have hjoin : join (front ++ "/") b = front ++ "/" ++ b := by simp [join, hb, hne, hend]
    have hfront : pieces "/" (front ++ "/") = pieces "/" front ++ [""] := by
      have h := pieces_append front ""
      rwa [String.append_empty] at h
    have hnames : names (pieces "/" front ++ pieces "/" b) = names (pieces "/" (front ++ "/") ++ pieces "/" b) := by
      rw [hfront, List.append_assoc]
      exact (names_eq_of_shortens (.blank _ _)).symm
    rw [hjoin, normalize_of_isAbsolute (isAbsolute_append ha)]
    simp only [Spelling.text, Spelling.ofText, doubledRoot_append hb, pieces_append, hnames]
  | false =>
    have hjoin : join a b = a ++ "/" ++ b := by simp [join, hb, hne, hend]
    have hlist : a.toList ≠ [] := by
      intro hn
      rw [String.toList_eq_nil_iff.1 hn] at hne
      simp at hne
    have hlast : a.toList.getLast hlist ≠ '/' := by
      intro hslash
      have hsplit := List.dropLast_concat_getLast hlist
      rw [hslash] at hsplit
      have : Text.endsWith a "/" = true := endsWith_iff.2 ⟨String.ofList a.toList.dropLast, String.ext (by simp [hsplit])⟩
      rw [hend] at this
      exact absurd this (by simp)
    have hdoubled : doubledRoot (a ++ "/" ++ b) = doubledRoot a := by
      rw [String.append_assoc]
      exact doubledRoot_append_of_concat (List.dropLast_concat_getLast hlist).symm hlast _
    rw [hjoin, normalize_of_isAbsolute (by rw [String.append_assoc]; exact isAbsolute_append ha)]
    simp only [Spelling.text, Spelling.ofText, hdoubled, pieces_append]

/-! ## Locators -/

def plain (locator : String) : String :=
  if Text.startsWith locator "file://" then Text.dropChars 7 locator else locator

def baseOf (working : String) (base : Option String) : String :=
  match base with
  | some "" | none => working
  | some b => b

/-- What a locator spells out, with the home directory in the place of a tilde. -/
def spelling (home working : String) (base : Option String) (locator : String) : Spelling :=
  match (plain locator).toList with
  | ['~'] => Spelling.ofText home
  | '~' :: '/' :: rest => ⟨doubledRoot home, pieces "/" home ++ pieces "/" (String.ofList rest)⟩
  | _ =>
    if isAbsolute (plain locator) then Spelling.ofText (plain locator)
    else ⟨doubledRoot (baseOf working base), pieces "/" (baseOf working base) ++ pieces "/" (plain locator)⟩

/-- A home directory: absolute and in normal form. -/
structure IsHome (home : String) : Prop where
  absolute : isAbsolute home = true
  normal : normalize home = home
  single : home ≠ "//"

/-- A locator whose tilde, if it starts with one, is that of the home directory and not of another user's. -/
def IsOwn (locator : String) : Prop :=
  Text.startsWith (plain locator) "~" = true → plain locator = "~" ∨ ∃ rest, plain locator = "~/" ++ rest

/-- A locator that has, after a tilde, nothing to be taken out. -/
def IsTidy (home locator : String) : Prop :=
  ∀ rest, plain locator = "~/" ++ rest → (∀ c ∈ pieces "/" rest, IsName c) ∨ (home = "/" ∧ rest = "")

theorem exists_intercalate_concat (hne : ns ≠ []) (h : ∀ c ∈ ns, IsName c) :
    ∃ xs x, ("/".intercalate ns).toList = xs ++ [x] ∧ x ≠ '/' := by
  induction ns with
  | nil => exact absurd rfl hne
  | cons c ns ih =>
    cases ns with
    | nil =>
      have hc := h c List.mem_cons_self
      have hlist : c.toList ≠ [] := fun hn => hc.nonempty (String.toList_eq_nil_iff.1 hn)
      refine ⟨c.toList.dropLast, c.toList.getLast hlist, ?_, fun hx => hc.unbroken ?_⟩
      · rw [String.intercalate_singleton, List.dropLast_concat_getLast]
      · rw [← hx]
        exact List.getLast_mem hlist
    | cons d ns =>
      obtain ⟨xs, x, hxs, hx⟩ := ih (by simp) fun e he => h e (List.mem_cons_of_mem _ he)
      exact ⟨c.toList ++ '/' :: xs, x, by simp [hxs], hx⟩

theorem IsHome.stripped {home : String} (h : IsHome home) :
    (home = "/" ∧ Text.dropEndWhile (· == '/') home.toList = []) ∨
      (names (pieces "/" home) ≠ [] ∧ Text.dropEndWhile (· == '/') home.toList = home.toList ∧
        ∃ xs x, home.toList = xs ++ [x] ∧ x ≠ '/') := by
  have hnames := (Spelling.unbroken_ofText home).isName
  have htext : home = (Spelling.ofText home).text := by rw [← normalize_of_isAbsolute h.absolute, h.normal]
  by_cases hn : names (pieces "/" home) = []
  · left
    have hroot : home = if doubledRoot home then "//" else "/" := by
      rw [Spelling.text, Spelling.ofText, hn] at htext
      simpa using htext
    have hsingle : home = "/" := by
      rw [hroot]
      by_cases hd : doubledRoot home = true
      · rw [if_pos hd] at hroot
        exact absurd hroot h.single
      · rw [if_neg hd]
    exact ⟨hsingle, by rw [hsingle]; decide⟩
  · right
    obtain ⟨xs, x, hxs, hx⟩ := exists_intercalate_concat hn hnames
    have hlist : ∃ ys, home.toList = ys ++ [x] := by
      rw [htext, Spelling.text, String.toList_append]
      exact ⟨_, by rw [show (names (Spelling.ofText home).components) = names (pieces "/" home) from rfl, hxs,
        ← List.append_assoc]⟩
    obtain ⟨ys, hys⟩ := hlist
    exact ⟨hn, by simp [Text.dropEndWhile, hys, hx], ys, x, hys, hx⟩

/-! ## Resolving -/

section

variable {home working locator rest : String} {base : Option String}

theorem resolve_eq : resolve home working base locator =
    if Text.startsWith (plain locator) "~" then expandHome home (plain locator)
    else if isAbsolute (plain locator) then normalize (plain locator)
    else normalize (join (baseOf working base) (plain locator)) := rfl

theorem spelling_of_no_tilde (h : Text.startsWith (plain locator) "~" = false) :
    spelling home working base locator =
      if isAbsolute (plain locator) then Spelling.ofText (plain locator)
      else ⟨doubledRoot (baseOf working base), pieces "/" (baseOf working base) ++ pieces "/" (plain locator)⟩ := by
  unfold spelling
  split
  · next hp => simp [Text.startsWith, hp] at h
  · next hp => simp [Text.startsWith, hp] at h
  · rfl

theorem unbroken_spelling (home working : String) (base : Option String) (locator : String) :
    (spelling home working base locator).Unbroken := by
  have hboth (a b c : String) (hc : c ∈ pieces "/" a ++ pieces "/" b) : '/' ∉ c.toList :=
    (List.mem_append.1 hc).elim unbroken_of_mem_pieces unbroken_of_mem_pieces
  unfold spelling
  split
  · exact Spelling.unbroken_ofText home
  · exact hboth _ _
  · split
    · exact Spelling.unbroken_ofText _
    · exact hboth _ _

theorem resolve_of_no_tilde (hbase : isAbsolute (baseOf working base) = true)
    (h : Text.startsWith (plain locator) "~" = false) :
    resolve home working base locator = (spelling home working base locator).text := by
  rw [resolve_eq, spelling_of_no_tilde h, h]
  cases habs : isAbsolute (plain locator) with
  | true => simpa using normalize_of_isAbsolute habs
  | false => simpa using normalize_join hbase habs

theorem spelling_home (hp : plain locator = "~") : spelling home working base locator = Spelling.ofText home := by
  simp [spelling, hp]

theorem resolve_home (h : IsHome home) (hp : plain locator = "~") :
    resolve home working base locator = (spelling home working base locator).text := by
  have hexpand : resolve home working base locator =
      if (Text.dropEndWhile (· == '/') home.toList).isEmpty then "/"
      else String.ofList (Text.dropEndWhile (· == '/') home.toList) := by
    rw [resolve_eq, hp]
    rfl
  rw [hexpand, spelling_home hp, ← normalize_of_isAbsolute h.absolute, h.normal]
  rcases h.stripped with ⟨hroot, hs⟩ | ⟨-, hs, xs, x, hx, -⟩
  · rw [hs, hroot]
    rfl
  · rw [hs, String.ofList_toList, hx]
    simp

theorem spelling_below (hp : plain locator = "~/" ++ rest) : spelling home working base locator =
    ⟨doubledRoot home, pieces "/" home ++ pieces "/" rest⟩ := by
  simp [spelling, hp]

theorem IsHome.pieces_eq (h : IsHome home) (hn : names (pieces "/" home) ≠ []) : pieces "/" home =
    "" :: (if doubledRoot home then [""] else []) ++ names (pieces "/" home) := by
  have htext := Spelling.pieces_text (Spelling.unbroken_ofText home)
  rw [← normalize_of_isAbsolute h.absolute, h.normal, Spelling.ofText, if_neg hn] at htext
  exact htext

theorem resolve_below (hp : plain locator = "~/" ++ rest) : resolve home working base locator =
    String.ofList (Text.dropEndWhile (· == '/') home.toList) ++ "/" ++ rest := by
  simp [resolve_eq, hp, expandHome, Text.startsWith, List.isPrefixOf]

theorem pieces_resolve_below (h : IsHome home) (hp : plain locator = "~/" ++ rest) :
    pieces "/" (resolve home working base locator) =
      "" :: (if doubledRoot home then [""] else []) ++ (names (pieces "/" home) ++ pieces "/" rest) := by
  rw [resolve_below hp]
  rcases h.stripped with ⟨hroot, hs⟩ | ⟨hn, hs, -⟩
  · have hnames : names (pieces "/" home) = [] := by
      rw [hroot]
      decide
    have hsingle : doubledRoot home = false := by
      rw [hroot]
      decide
    rw [hs, hnames, hsingle]
    exact pieces_slash rest
  · rw [hs, String.ofList_toList, pieces_append]
    conv => lhs; rw [h.pieces_eq hn]
    simp

theorem names_root : names (pieces "/" "/") = [] := by decide

theorem names_below_iff (h : IsHome home) (rest : String) :
    names (pieces "/" home) ++ pieces "/" rest =
        (if names (names (pieces "/" home) ++ pieces "/" rest) = [] then [""]
          else names (names (pieces "/" home) ++ pieces "/" rest)) ↔
      (∀ c ∈ pieces "/" rest, IsName c) ∨ (home = "/" ∧ rest = "") := by
  have hhome := isName_names_pieces home
  have hblank : pieces "/" "" = [""] := pieces_unbroken (by simp)
  by_cases hn : names (names (pieces "/" home) ++ pieces "/" rest) = []
  · rw [if_pos hn]
    constructor
    · intro heq
      rcases List.append_eq_singleton_iff.1 heq with ⟨hnone, hrest⟩ | ⟨-, hrest⟩
      · have hroot : home = "/" := h.stripped.elim (fun hs => hs.1) (fun hs => absurd hnone hs.1)
        exact Or.inr ⟨hroot, eq_of_pieces_eq (hrest.trans hblank.symm)⟩
      · exact absurd hrest (pieces_ne_nil rest)
    · rintro (hrest | ⟨rfl, rfl⟩)
      · rw [names_of_isName (List.forall_mem_append.2 ⟨hhome, hrest⟩)] at hn
        exact absurd (List.append_eq_nil_iff.1 hn).2 (pieces_ne_nil rest)
      · rw [names_root, hblank]
        rfl
  · rw [if_neg hn]
    constructor
    · intro heq
      have hall : ∀ c ∈ names (pieces "/" home) ++ pieces "/" rest, IsName c := by
        rw [heq]
        refine names_isName fun c hc => ?_
        rcases List.mem_append.1 hc with hc | hc
        · exact (hhome c hc).unbroken
        · exact unbroken_of_mem_pieces hc
      exact Or.inl (List.forall_mem_append.1 hall).2
    · rintro (hrest | ⟨rfl, rfl⟩)
      · exact (names_of_isName (List.forall_mem_append.2 ⟨hhome, hrest⟩)).symm
      · rw [names_root, hblank] at hn
        exact absurd rfl hn

theorem resolve_below_eq_text_iff (h : IsHome home) (hp : plain locator = "~/" ++ rest) :
    resolve home working base locator = (spelling home working base locator).text ↔
      (∀ c ∈ pieces "/" rest, IsName c) ∨ (home = "/" ∧ rest = "") := by
  have hnames : names (spelling home working base locator).components =
      names (names (pieces "/" home) ++ pieces "/" rest) := by
    rw [spelling_below hp, names_append, names_append (names (pieces "/" home)),
      names_of_isName (isName_names_pieces home)]
  have hleft : pieces "/" (resolve home working base locator) = _ := pieces_resolve_below h hp
  have hright := Spelling.pieces_text (unbroken_spelling home working base locator)
  rw [hnames, show (spelling home working base locator).doubled = doubledRoot home by rw [spelling_below hp]] at hright
  rw [← names_below_iff h rest]
  constructor
  · intro heq
    rw [heq, hright] at hleft
    exact (List.append_cancel_left hleft).symm
  · intro heq
    apply eq_of_pieces_eq
    rw [hleft, hright, ← heq]

/-- A locator is resolved to the shortest text of its path exactly if it is tidy. -/
theorem resolve_eq_text_iff (h : IsHome home) (hbase : isAbsolute (baseOf working base) = true) (hown : IsOwn locator) :
    resolve home working base locator = (spelling home working base locator).text ↔ IsTidy home locator := by
  cases htilde : Text.startsWith (plain locator) "~" with
  | false =>
    refine iff_of_true (resolve_of_no_tilde hbase htilde) fun rest hp => ?_
    simp [hp, Text.startsWith, List.isPrefixOf] at htilde
  | true =>
    rcases hown htilde with hp | ⟨rest, hp⟩
    · refine iff_of_true (resolve_home h hp) fun rest hrest => ?_
      rw [hp] at hrest
      have hlist := congrArg String.toList hrest
      simp at hlist
    · rw [resolve_below_eq_text_iff h hp]
      refine ⟨fun hrest rest' hp' => ?_, fun htidy => htidy rest hp⟩
      rwa [show rest' = rest by simpa [hp] using hp'.symm]

theorem plain_of_isAbsolute (h : isAbsolute p = true) : plain p = p := by
  obtain ⟨rest, rfl⟩ := startsWith_iff.1 h
  simp [plain, Text.startsWith, List.isPrefixOf]

theorem no_tilde_of_isAbsolute (h : isAbsolute p = true) : Text.startsWith p "~" = false := by
  obtain ⟨rest, rfl⟩ := startsWith_iff.1 h
  simp [Text.startsWith, List.isPrefixOf]

theorem resolve_of_isAbsolute (h : isAbsolute p = true) : resolve home working base p = (Spelling.ofText p).text := by
  rw [resolve_eq, plain_of_isAbsolute h, no_tilde_of_isAbsolute h, h]
  exact normalize_of_isAbsolute h

theorem spelling_of_isAbsolute (h : isAbsolute p = true) : spelling home working base p = Spelling.ofText p := by
  have hplain := plain_of_isAbsolute h
  rw [spelling_of_no_tilde (by rw [hplain]; exact no_tilde_of_isAbsolute h), hplain, if_pos h]

theorem isAbsolute_resolve_below (h : IsHome home) (hp : plain locator = "~/" ++ rest) :
    isAbsolute (resolve home working base locator) = true := by
  rw [resolve_below hp]
  rcases h.stripped with ⟨-, hs⟩ | ⟨-, hs, -⟩
  · rw [hs]
    exact startsWith_iff.2 ⟨rest, by simp⟩
  · rw [hs, String.ofList_toList, String.append_assoc]
    exact isAbsolute_append h.absolute

theorem ofText_resolve_below (h : IsHome home) (hroot : home ≠ "/") (hp : plain locator = "~/" ++ rest) :
    (Spelling.ofText (resolve home working base locator)).text = (spelling home working base locator).text := by
  have hdoubled : doubledRoot (resolve home working base locator) = doubledRoot home := by
    rcases h.stripped with ⟨hr, -⟩ | ⟨-, hs, xs, x, hxs, hx⟩
    · exact absurd hr hroot
    · rw [resolve_below hp, hs, String.ofList_toList, String.append_assoc, doubledRoot_append_of_concat hxs hx]
  have hnames : names (pieces "/" (resolve home working base locator)) = names (pieces "/" home ++ pieces "/" rest) := by
    rw [pieces_resolve_below h hp, names_append (pieces "/" home)]
    cases doubledRoot home <;> simp [names_append, names_of_isName (isName_names_pieces home)]
  simp only [Spelling.text, Spelling.ofText, spelling_below hp, hdoubled, hnames]

end

/-! ## One place -/

/-- A locator with the base it is resolved against: the base is a directory from the root, and what may
stand in front is the tilde of the home directory with nothing to be taken out behind it. -/
structure IsSettled (home : String) (base : Option String) (locator : String) : Prop where
  based : ∀ d, base = some d → d = "" ∨ isAbsolute d = true
  own : IsOwn locator
  tidy : IsTidy home locator

theorem isSettled_of_no_tilde {home locator : String} {base : Option String}
    (hbase : ∀ d, base = some d → d = "" ∨ isAbsolute d = true) (h : Text.startsWith (plain locator) "~" = false) :
    IsSettled home base locator where
  based := hbase
  own := fun htilde => by rw [h] at htilde; cases htilde
  tidy := fun rest hp => by simp [hp, Text.startsWith, List.isPrefixOf] at h

theorem isAbsolute_baseOf {working : String} {base : Option String} (hworking : isAbsolute working = true)
    (hbase : ∀ d, base = some d → d = "" ∨ isAbsolute d = true) : isAbsolute (baseOf working base) = true := by
  unfold baseOf
  split
  · exact hworking
  · exact hworking
  · next b hne => exact (hbase b rfl).resolve_left hne

section

variable {home working : String} {base base₁ base₂ : Option String} {locator locator₁ locator₂ : String}

theorem IsSettled.resolve_eq_text (hhome : IsHome home) (hworking : isAbsolute working = true)
    (h : IsSettled home base locator) :
    resolve home working base locator = (spelling home working base locator).text :=
  (resolve_eq_text_iff hhome (isAbsolute_baseOf hworking h.based) h.own).2 h.tidy

theorem resolve_resolve (hhome : IsHome home) (hworking : isAbsolute working = true)
    (h : IsSettled home base locator) (base' : Option String) :
    resolve home working base' (resolve home working base locator) = resolve home working base locator := by
  rw [h.resolve_eq_text hhome hworking, resolve_of_isAbsolute (Spelling.isAbsolute_text _),
    Spelling.text_ofText_text (unbroken_spelling _ _ _ _)]

theorem resolve_eq_iff_samePath (hhome : IsHome home) (hworking : isAbsolute working = true)
    (h₁ : IsSettled home base₁ locator₁) (h₂ : IsSettled home base₂ locator₂) :
    resolve home working base₁ locator₁ = resolve home working base₂ locator₂ ↔
      SamePath (spelling home working base₁ locator₁) (spelling home working base₂ locator₂) := by
  rw [h₁.resolve_eq_text hhome hworking, h₂.resolve_eq_text hhome hworking]
  exact Spelling.text_eq_iff (unbroken_spelling _ _ _ _) (unbroken_spelling _ _ _ _)

theorem exists_below_of_not_tidy (h : ¬ IsTidy home locator) :
    ∃ rest, plain locator = "~/" ++ rest := by
  by_contra hnone
  exact h fun rest hp => absurd ⟨rest, hp⟩ hnone

/-- A locator that is not tidy has another one beside it: what its path is called from the root. -/
theorem exists_other_of_not_tidy (hhome : IsHome home) (hworking : isAbsolute working = true)
    (hbase : ∀ d, base = some d → d = "" ∨ isAbsolute d = true) (hown : IsOwn locator) (h : ¬ IsTidy home locator) :
    ∃ other, IsSettled home base other ∧
      SamePath (spelling home working base locator) (spelling home working base other) ∧
      resolve home working base locator ≠ resolve home working base other := by
  have hunbroken := unbroken_spelling home working base locator
  have habs := Spelling.isAbsolute_text (spelling home working base locator)
  have htilde := no_tilde_of_isAbsolute habs
  rw [← plain_of_isAbsolute habs] at htilde
  refine ⟨(spelling home working base locator).text, isSettled_of_no_tilde hbase htilde, ?_, ?_⟩
  · rw [spelling_of_isAbsolute habs]
    exact Spelling.samePath_ofText_text hunbroken
  · rw [resolve_of_isAbsolute habs, Spelling.text_ofText_text hunbroken]
    exact fun heq => h ((resolve_eq_text_iff hhome (isAbsolute_baseOf hworking hbase) hown).1 heq)

theorem resolve_resolve_ne (hhome : IsHome home) (hworking : isAbsolute working = true)
    (hbase : ∀ d, base = some d → d = "" ∨ isAbsolute d = true) (hown : IsOwn locator) (h : ¬ IsTidy home locator)
    (hroot : home ≠ "/") (base' : Option String) :
    resolve home working base' (resolve home working base locator) ≠ resolve home working base locator := by
  obtain ⟨rest, hp⟩ := exists_below_of_not_tidy h
  rw [resolve_of_isAbsolute (isAbsolute_resolve_below hhome hp), ofText_resolve_below hhome hroot hp]
  exact fun heq => h ((resolve_eq_text_iff hhome (isAbsolute_baseOf hworking hbase) hown).1 heq.symm)

theorem isAbsolute_resolve (hhome : IsHome home) (hworking : isAbsolute working = true)
    (hbase : ∀ d, base = some d → d = "" ∨ isAbsolute d = true) (hown : IsOwn locator) :
    isAbsolute (resolve home working base locator) = true := by
  by_cases h : IsTidy home locator
  · rw [IsSettled.resolve_eq_text hhome hworking ⟨hbase, hown, h⟩]
    exact Spelling.isAbsolute_text _
  · obtain ⟨rest, hp⟩ := exists_below_of_not_tidy h
    exact isAbsolute_resolve_below hhome hp

end

/-- An identifier that is located at a file is located where its text without the blanks is resolved to. -/
theorem locate_of_file {fs : Files} {registry base : Option String} {identifier : String} {l : Module.Location}
    (h : Module.locate fs registry identifier base = .ok l) (hfile : l.origin = .file) :
    l = Module.located .file (Module.completePath fs (resolve fs.home fs.working base (Text.strip identifier))) := by
  unfold Module.locate at h
  simp only at h
  split at h
  · cases h
  split at h
  · cases h
    cases hfile
  split at h
  · cases h
    cases hfile
  split at h
  · split at h
    · cases h
    · cases h
    · cases h
      cases hfile
  split at h
  · split at h
    · cases h
      cases hfile
    · cases h
      rfl
  · cases h
    rfl

/-- Locators are resolved to paths from the root, and two that are settled to the same one exactly if
they spell one path; resolved again, it stays. A locator whose tilde is followed by what is to be taken
out is resolved to a text of its own: its path has another one, and below a home directory that is not
the root the text is resolved further. Identifiers of files that spell one path are one location. -/
theorem resolve_one_place {home working : String} (hhome : IsHome home) (hworking : isAbsolute working = true) :
    (∀ base locator, (∀ d, base = some d → d = "" ∨ isAbsolute d = true) → IsOwn locator →
      isAbsolute (resolve home working base locator) = true ∧
      (¬ IsTidy home locator →
        (∃ other, IsSettled home base other ∧
          SamePath (spelling home working base locator) (spelling home working base other) ∧
          resolve home working base locator ≠ resolve home working base other) ∧
        (home ≠ "/" → ∀ base', resolve home working base' (resolve home working base locator) ≠
          resolve home working base locator))) ∧
    (∀ base locator, IsSettled home base locator → ∀ base',
      resolve home working base' (resolve home working base locator) = resolve home working base locator) ∧
    (∀ base₁ base₂ locator₁ locator₂, IsSettled home base₁ locator₁ → IsSettled home base₂ locator₂ →
      (resolve home working base₁ locator₁ = resolve home working base₂ locator₂ ↔
        SamePath (spelling home working base₁ locator₁) (spelling home working base₂ locator₂))) ∧
    ∀ (fs : Files) registry base₁ base₂ identifier₁ identifier₂ l₁ l₂, fs.home = home → fs.working = working →
      Module.locate fs registry identifier₁ base₁ = .ok l₁ → l₁.origin = .file →
      Module.locate fs registry identifier₂ base₂ = .ok l₂ → l₂.origin = .file →
      IsSettled home base₁ (Text.strip identifier₁) → IsSettled home base₂ (Text.strip identifier₂) →
      SamePath (spelling home working base₁ (Text.strip identifier₁))
        (spelling home working base₂ (Text.strip identifier₂)) →
      l₁ = l₂ := by
  refine ⟨fun base locator hbase hown => ⟨isAbsolute_resolve hhome hworking hbase hown, fun h => ⟨?_, ?_⟩⟩,
    fun base locator h => resolve_resolve hhome hworking h,
    fun _ _ _ _ h₁ h₂ => resolve_eq_iff_samePath hhome hworking h₁ h₂, ?_⟩
  · exact exists_other_of_not_tidy hhome hworking hbase hown h
  · exact resolve_resolve_ne hhome hworking hbase hown h
  · rintro fs registry base₁ base₂ identifier₁ identifier₂ l₁ l₂ rfl rfl hl₁ hfile₁ hl₂ hfile₂ h₁ h₂ hsame
    rw [locate_of_file hl₁ hfile₁, locate_of_file hl₂ hfile₂,
      (resolve_eq_iff_samePath hhome hworking h₁ h₂).2 hsame]

/-- Two spellings of one module, and one that a tilde leaves as it is. -/
theorem resolve_one_place_spellings : IsHome "/home/u" ∧ isAbsolute "/work" = true ∧
    resolve "/home/u" "/work" none "lib/../m.rexa" = resolve "/home/u" "/work" (some "/work//x/.") "file://../m.rexa" ∧
    resolve "/home/u" "/work" none (resolve "/home/u" "/work" none "~/lib/../m.rexa") ≠
      resolve "/home/u" "/work" none "~/lib/../m.rexa" := by
  have hhome : IsHome "/home/u" := ⟨by decide, by decide, by decide⟩
  have hworking : isAbsolute "/work" = true := by decide
  obtain ⟨huntidy, -, hsame, -⟩ := resolve_one_place hhome hworking
  refine ⟨hhome, hworking, ?_, ?_⟩
  · refine (hsame _ _ _ _ (isSettled_of_no_tilde (by simp) (by decide)) (isSettled_of_no_tilde ?_ (by decide))).2 ?_
    · rintro d ⟨⟩
      exact Or.inr (by decide)
    · exact (Spelling.samePath_iff (unbroken_spelling _ _ _ _) (unbroken_spelling _ _ _ _)).2 ⟨by decide, by decide⟩
  · have hown : IsOwn "~/lib/../m.rexa" := fun _ => Or.inr ⟨"lib/../m.rexa", by decide⟩
    have hnot : ¬ IsTidy "/home/u" "~/lib/../m.rexa" := by
      intro htidy
      rcases htidy "lib/../m.rexa" (by decide) with hnames | ⟨hroot, -⟩
      · exact (hnames ".." (by decide)).notUp rfl
      · exact absurd hroot (by decide)
    exact ((huntidy none _ (by simp) hown).2 hnot).2 (by decide) none

end Conductor.Path
