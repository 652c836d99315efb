import Conductor.Proofs.Memory.View
import Conductor.Proofs.Run.Builtins
import Conductor.Proofs.Text.Separator
import Conductor.Run.Script

/-!
# Split and joined texts

A program that splits a text at a separator gets a new stem with the pieces, and joining the items of a stem gives the text
with the separator between them. So either undoes the other: the pieces joined are the text, and the items come back if the
separator stands in their joined text only between them.
-/

set_option autoImplicit false

namespace Conductor

namespace Play

theorem mapM_text (items : List String) (m : Machine) : (items.map Value.text).mapM text m = .done items m := by
  induction items with
  | nil => rfl
  | cons item items ih =>
    rw [List.map_cons, List.mapM_cons]
    change ((List.map Value.text items).mapM text m).bind _ = _
    rw [ih]
    rfl

theorem split_apply (o : Outer) {sep : String} (hne : sep ≠ "") (hblank : sep ≠ " ") (s : String) (line : Option Nat)
    (m : Machine) :
    apply o (.ofBuiltin .split) [(none, .text s), (none, .text sep)] none false line m =
      .done (.stem m.world.store.stems.size)
        (m.withStore (m.world.store.alloc ⟨(Text.pieces sep s).map .text, []⟩).2) := by
  have hspace : (sep == " ") = false := beq_false_of_ne hblank
  have hempty : sep.isEmpty = false := by simpa using hne
  have hsplit (m : Machine) : builtin .split { placed := [.text s, .text sep] } m =
      .done (.stem m.world.store.stems.size)
        (m.withStore (m.world.store.alloc ⟨(Text.pieces sep s).map .text, []⟩).2) := by
    have hs : text ((Given.ofArguments .split { placed := [.text s, .text sep] }).value "string") m = .done s m := rfl
    have hsep : text ((Given.ofArguments .split { placed := [.text s, .text sep] }).valueOr "separator" (.text " ")) m =
      .done sep m := rfl
    change split _ m = _
    simp only [split, Run.bind_apply, hs, hsep, Step.bind, hspace, hempty]
    rfl
  exact apply_builtin o (a := { placed := [.text s, .text sep] }) rfl rfl (hsplit _) rfl line

theorem arrayJoin_apply (o : Outer) (sep : String) (line : Option Nat) {m : Machine} {a : Address} {items : List String}
    (ha : (m.world.store.get a).items = items.map .text) :
    apply o (.ofBuiltin .arrayJoin) [(none, .stem a), (none, .text sep)] none false line m =
      .done (.text (String.intercalate sep items)) m := by
  have hjoin : builtin .arrayJoin { placed := [.stem a, .text sep] } (m.inCall ⟨"ARRAY_JOIN", [.stem a, .text sep]⟩) =
      .done (.text (String.intercalate sep items)) (m.inCall ⟨"ARRAY_JOIN", [.stem a, .text sep]⟩) := by
    change Step.bind (List.mapM text (m.world.store.get a).items _) _ = _
    rw [ha, mapM_text]
    rfl
  exact apply_builtin o (a := { placed := [.stem a, .text sep] }) rfl rfl hjoin rfl line

/-- Splitting and joining with one separator, neither empty nor a single space. The pieces of a text are in a new stem: none
of them holds the separator, there is one more of them than occurrences, and for as long as the stem is as it was made,
joining it gives the text. Items whose joined text has the separator only between them come back from that text. -/
theorem split_join_inverse (o : Outer) (line : Option Nat) {sep : String} (hne : sep ≠ "") (hblank : sep ≠ " ") :
    (∀ (s : String) (m : Machine), ∃ (a : Address) (m' : Machine) (pieces : List String),
      apply o (.ofBuiltin .split) [(none, .text s), (none, .text sep)] none false line m = .done (.stem a) m' ∧
      m'.world.store.get a = ⟨pieces.map .text, []⟩ ∧
      (∀ piece ∈ pieces, ¬ sep.toList <:+: piece.toList) ∧
      (∃ n, Text.Counted sep.toList s.toList n ∧ (m'.world.store.get a).count = n + 1) ∧
      ∀ later : Machine, later.world.store.get a = m'.world.store.get a →
        apply o (.ofBuiltin .arrayJoin) [(none, .stem a), (none, .text sep)] none false line later =
          .done (.text s) later) ∧
    ∀ (items : List String) (a : Address) (m : Machine), items ≠ [] →
      Text.OnlyBetween sep.toList (items.map String.toList) → (m.world.store.get a).items = items.map .text →
      ∃ joined,
        apply o (.ofBuiltin .arrayJoin) [(none, .stem a), (none, .text sep)] none false line m = .done (.text joined) m ∧
        ∀ later : Machine, ∃ b m',
          apply o (.ofBuiltin .split) [(none, .text joined), (none, .text sep)] none false line later =
            .done (.stem b) m' ∧
          m'.world.store.get b = ⟨items.map .text, []⟩ := by
  -- the stem that a split makes
  have hmade (s : String) (m : Machine) :
      (m.withStore (m.world.store.alloc ⟨(Text.pieces sep s).map .text, []⟩).2).world.store.get
        m.world.store.stems.size = ⟨(Text.pieces sep s).map .text, []⟩ := by
    rw [Machine.withStore, Store.get_alloc, if_pos rfl]
  refine ⟨fun s m => ⟨_, _, _, split_apply o hne hblank s line m, hmade s m, ?_, ?_, ?_⟩,
    fun items a m hitems hbetween ha => ⟨_, arrayJoin_apply o sep line ha, fun later => ?_⟩⟩
  · intro piece hpiece
    exact (Text.pieces_cuts hne s).free (by simpa using hne) _ (List.mem_map_of_mem hpiece)
  · obtain ⟨n, hcount, hlength⟩ := (Text.pieces_cuts hne s).counted
    refine ⟨n, hcount, ?_⟩
    rw [hmade, Stem.count, List.length_map, ← hlength, List.length_map]
  · intro later hlater
    rw [hmade] at hlater
    rw [arrayJoin_apply o sep line (congrArg Stem.items hlater), Text.intercalate_pieces hne]
  · refine ⟨_, _, split_apply o hne hblank _ line later, ?_⟩
    rw [hmade, Text.pieces_intercalate hne hitems hbetween]

def pairHolding : Machine := { world := { store := { stems := #[⟨["x", "y"].map .text, []⟩] } } }

theorem onlyBetween_pair : Text.OnlyBetween ", ".toList (["x", "y"].map String.toList) := by
  intro u v huv
  have hjoined : ['x', ',', ' ', 'y'] = u ++ [',', ' '] ++ v := huv
  match u, hjoined with
  | [c], hjoined =>
    obtain ⟨rfl, -⟩ := List.cons.inj hjoined
    exact ⟨1, Nat.one_pos, Nat.one_lt_two, rfl⟩
  | [], hjoined | [_, _], hjoined => simp at hjoined
  | _ :: _ :: _ :: rest, hjoined =>
    have hlength := congrArg List.length hjoined
    simp only [List.length_append, List.length_cons, List.length_nil] at hlength
    omega

/-- A text in which the separator overlaps itself, and two items that are joined with another separator. -/
theorem split_join_inverse_overlapping :
    (∃ a m', apply (outer horizon) (.ofBuiltin .split) [(none, .text "aaabaaa"), (none, .text "aa")] none false none {} =
        .done (.stem a) m' ∧
      apply (outer horizon) (.ofBuiltin .arrayJoin) [(none, .stem a), (none, .text "aa")] none false none m' =
        .done (.text "aaabaaa") m') ∧
    ∃ joined b m',
      apply (outer horizon) (.ofBuiltin .arrayJoin) [(none, .stem 0), (none, .text ", ")] none false none pairHolding =
        .done (.text joined) pairHolding ∧
      apply (outer horizon) (.ofBuiltin .split) [(none, .text joined), (none, .text ", ")] none false none pairHolding =
        .done (.stem b) m' ∧
      m'.world.store.get b = ⟨["x", "y"].map .text, []⟩ := by
  have hsplit := split_join_inverse (outer horizon) none (show "aa" ≠ "" by decide) (show "aa" ≠ " " by decide)
  have hjoin := split_join_inverse (outer horizon) none (show ", " ≠ "" by decide) (show ", " ≠ " " by decide)
  obtain ⟨a, m', -, hmade, -, -, -, hjoined⟩ := hsplit.1 "aaabaaa" {}
  obtain ⟨joined, htext, hagain⟩ := hjoin.2 ["x", "y"] 0 pairHolding (List.cons_ne_nil _ _) onlyBetween_pair rfl
  obtain ⟨b, m'', hback, hitems⟩ := hagain pairHolding
  exact ⟨⟨a, m', hmade, hjoined m' rfl⟩, joined, b, m'', htext, hback, hitems⟩

end Play

end Conductor
