import Conductor.Document.Structured
import Conductor.Proofs.Memory.Conversion

/-!
# Documents that cannot be read

The text of a document is well formed or it is not, and to read a malformed one is a
failure that says so. There is one other failure: a scalar that is tagged as a truth value
and is none of the words for one is looked up in vain.
-/

set_option autoImplicit false

namespace Conductor

def Failure.isUnread : Failure → Bool
  | lookupFailed _ => true
  | f => f.isMalformedText

theorem Failure.lookupFailed_of_isUnread {f : Failure} (h : f.isUnread = true) (hf : f.isMalformedText = false) :
    ∃ word, f = .lookupFailed word := by
  unfold isUnread at h
  split at h
  · exact ⟨_, rfl⟩
  · rw [hf] at h
    cases h

abbrev Unread {α : Type} (x : Except Failure α) : Prop := Only (fun f => f.isUnread = true) x

instance (s : String) : Unread (Json.parse s) := by
  have hstop (stop : Json.Stop) : (stop.failure s.toList).isUnread = true := by
    cases stop <;> rfl
  unfold Json.parse
  extract_lets cs outcome
  cases outcome with
  | ok t => exact inferInstanceAs (Unread (.ok t))
  | error stop => exact .error (hstop stop)

namespace Yaml

variable {α : Type}

instance (what : String) : Unread (fault what : Except Failure α) := .error rfl

/-! ## Scalars -/

instance (s : String) : Unread (intValue s) := by
  have hdigits (base : Nat) (ds : List Char) : Unread (intValue.ofDigits base ds) := by
    unfold intValue.ofDigits
    split
    · infer_instance
    · exact .error rfl
  have hlong (k : Nat) : Unread (.error (.numeralBeyondLimit k) : Except Failure Nat) := .error rfl
  unfold intValue
  extract_lets cs negative body finish
  have hfinish (k : Nat) : Unread (finish k) := by
    unfold finish
    infer_instance
  clear_value finish body
  split <;> infer_instance

instance (t : Stamp) : Unread t.value := by
  have hraised (message : String) : Unread (.error (.raised "ValueError" message) : Except Failure Tree) := .error rfl
  have hbad : Unread (.error (.malformedYaml "bad time") : Except Failure Tree) := .error rfl
  unfold Stamp.value
  split
  · infer_instance
  split
  · infer_instance
  split
  · infer_instance
  · split <;> infer_instance

instance (type : ScalarType) (s : String) : Unread (scalarValue type s) := by
  have hlookup (key : String) : Unread (.error (.lookupFailed key) : Except Failure Tree) := .error rfl
  have hbad (what : String) : Unread (.error (.malformedYaml what) : Except Failure Tree) := .error rfl
  unfold scalarValue
  split
  case h_2 => split <;> infer_instance
  case h_7 => split <;> infer_instance
  all_goals infer_instance

instance (tag : Option String) (text : String) (plain : Bool) : Unread (tagged tag text plain) := by
  have hdecimal : Unread (.error (.notADecimal (Text.quoted text)) : Except Failure Tree) := .error rfl
  unfold tagged
  extract_lets implicit
  have himplicit : Unread implicit := by
    unfold implicit
    infer_instance
  clear_value implicit
  split <;> infer_instance

/-! ## Collections -/

instance (kind : String) (tag : Option String) : Unread (collectionTag kind tag) := by
  unfold collectionTag
  split <;> infer_instance

instance (pairs : List (Key × Tree)) : Unread (mapping pairs) := by
  have hmerged (t : Tree) : Unread (mergedEntries t) := by
    have hitem (t : Tree) : Unread (match t with
        | .dict entries => .ok entries
        | _ => fault "expected a mapping for merging") := by
      split <;> infer_instance
    unfold mergedEntries
    split <;> infer_instance
  have hmerge (p : Key × Tree) : Unread (match p.1 with
      | .merge => mergedEntries p.2
      | _ => .ok []) := by
    split <;> infer_instance
  have hown (p : Key × Tree) : Unread (match p.1 with
      | .merge => .ok []
      | .default => .ok [(.text "=", p.2)]
      | .plain (.scalar s) => .ok [((.scalar s : Tree), p.2)]
      | .plain _ => fault "found unhashable key") := by
    split <;> infer_instance
  unfold mapping
  infer_instance

instance (anchor : Option String) (p : Parse) : Unread (p.name anchor) := by
  unfold Parse.name
  split <;> infer_instance

/-! ## Nodes -/

mutual
theorem node_unread (fuel : Nat) (block indentless : Bool) (p : Parse) : Unread (node fuel block indentless p) := by
  match fuel with
  | 0 => rw [node]; infer_instance
  | fuel + 1 =>
    have hflow (p : Parse) := flowItems_unread fuel true [] p
    have hflowPairs (p : Parse) := flowPairs_unread fuel true [] p
    have hindentless (p : Parse) := indentlessItems_unread fuel [] p
    have hblock (p : Parse) := blockItems_unread fuel [] p
    have hblockPairs (p : Parse) := blockPairs_unread fuel [] p
    rw [node]
    split
    · split <;> infer_instance
    · split
      next anchor tag p _ =>
      refine .andThen fun p => ?_
      extract_lets keep
      have hkeep (t : Tree) (p : Parse) : Unread (keep t p) := by
        unfold keep
        infer_instance
      have hempty (p : Parse) : Unread (keepEmpty keep tag p) := by
        unfold keepEmpty
        infer_instance
      clear_value keep
      split <;> infer_instance

theorem valueNode_unread (fuel : Nat) (block indentless : Bool) (p : Parse) :
    Unread (valueNode fuel block indentless p) := by
  match fuel with
  | 0 => rw [valueNode]; infer_instance
  | fuel + 1 =>
    have hnode := node_unread fuel block indentless p
    rw [valueNode]
    refine .andThen fun found => ?_
    split <;> infer_instance

theorem blockItems_unread (fuel : Nat) (done : List Tree) (p : Parse) : Unread (blockItems fuel done p) := by
  match fuel with
  | 0 => rw [blockItems]; infer_instance
  | fuel + 1 =>
    have hvalue (p : Parse) := valueNode_unread fuel true false p
    have hmore (done : List Tree) (p : Parse) := blockItems_unread fuel done p
    rw [blockItems]
    split <;> infer_instance

theorem indentlessItems_unread (fuel : Nat) (done : List Tree) (p : Parse) : Unread (indentlessItems fuel done p) := by
  match fuel with
  | 0 => rw [indentlessItems]; infer_instance
  | fuel + 1 =>
    have hvalue (p : Parse) := valueNode_unread fuel true false p
    have hmore (done : List Tree) (p : Parse) := indentlessItems_unread fuel done p
    rw [indentlessItems]
    split <;> infer_instance

theorem blockPairs_unread (fuel : Nat) (done : List (Key × Tree)) (p : Parse) : Unread (blockPairs fuel done p) := by
  match fuel with
  | 0 => rw [blockPairs]; infer_instance
  | fuel + 1 =>
    have hnode (p : Parse) := node_unread fuel true true p
    have hvalue (p : Parse) := valueNode_unread fuel true true p
    have hmore (done : List (Key × Tree)) (p : Parse) := blockPairs_unread fuel done p
    rw [blockPairs]
    split <;> infer_instance

theorem flowItems_unread (fuel : Nat) (first : Bool) (done : List Tree) (p : Parse) :
    Unread (flowItems fuel first done p) := by
  match fuel with
  | 0 => rw [flowItems]; infer_instance
  | fuel + 1 =>
    have hnode (p : Parse) := node_unread fuel false false p
    have hvalue (p : Parse) := valueNode_unread fuel false false p
    have hmore (done : List Tree) (p : Parse) := flowItems_unread fuel false done p
    rw [flowItems]
    split
    · infer_instance
    · split
      · infer_instance
      · extract_lets p
        clear_value p
        split <;> infer_instance

theorem flowPairs_unread (fuel : Nat) (first : Bool) (done : List (Key × Tree)) (p : Parse) :
    Unread (flowPairs fuel first done p) := by
  match fuel with
  | 0 => rw [flowPairs]; infer_instance
  | fuel + 1 =>
    have hnode (p : Parse) := node_unread fuel false false p
    have hvalue (p : Parse) := valueNode_unread fuel false false p
    have hmore (done : List (Key × Tree)) (p : Parse) := flowPairs_unread fuel false done p
    rw [flowPairs]
    split
    · infer_instance
    · split
      · infer_instance
      · extract_lets p
        clear_value p
        split <;> infer_instance
end

attribute [instance] valueNode_unread

instance (text : String) : Unread (parse text) := by
  have htokens : Unread ((tokens text).mapError Failure.malformedYaml) := by
    cases tokens text with
    | ok ts => exact inferInstanceAs (Unread (.ok ts))
    | error what => exact .error rfl
  unfold parse
  refine .andThen fun ts => ?_
  extract_lets fuel finish
  have hfinish (outcome : Tree × Parse) : Unread (finish outcome) := by
    unfold finish
    infer_instance
  clear_value finish
  split
  · infer_instance
  · infer_instance
  · split
    · split
      · infer_instance
      · split <;> infer_instance
    · infer_instance

end Yaml

instance (text : String) (format : Syntax.Format) : Unread (Structured.parse text format) := by
  cases format with
  | json => exact inferInstanceAs (Unread (Json.parse text))
  | yaml => exact inferInstanceAs (Unread (Yaml.parse text))

end Conductor
