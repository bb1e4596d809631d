/-
**The payload, whatever the order of the fields.**

The fields of a declaration are looked at one after the other, and a payload that was found may give
way to a later one.  What is found in the end can be said without an order: the one field that is
marked, else the field named `data`.  The same holds of the refusals, except for which one comes
first.

Main definitions:

* `SpanChain.Derive.Field.carriesMark`, `SpanChain.Derive.Field.isMismarked` — what the attributes
  of a field say;
* `SpanChain.Derive.IsClear`, `SpanChain.Derive.IsPayload` — fields among which a payload can be
  chosen, and the one to choose, without reference to their order;
* `SpanChain.Derive.Choice.IsFor` — the choice that some fields ask for;
* `SpanChain.Derive.Item.IsNode` — declarations that can be those of nodes.

Main results:

* `SpanChain.Derive.Choice.IsFor.add` — one more field leads from the choice that some fields ask
  for to the one that all of them do;
* `SpanChain.Derive.choose_of_isClear`, `SpanChain.Derive.choose_of_not_isClear` — clear fields get
  the choice they ask for, and others get none;
* `SpanChain.Derive.derive_regardless_of_order` — **so the code does not depend on the order of the
  fields**.
-/

import SpanChain.Proofs.Derive.Code
import Mathlib.Data.List.Induction
import Mathlib.Data.List.Perm.Basic

set_option relaxedAutoImplicit false
set_option autoImplicit false

namespace SpanChain.Derive

variable {f g : Field} {u fields : List Field} {c : Choice} {row : Row} {text : Token}

/-! ### Steps that can be refused -/

section Steps

variable {α β : Type} (a : α) (p : Problem) (next : α → Except Problem β)

theorem ok_bind : (Except.ok a >>= next) = next a := rfl

theorem error_bind : (Except.error p >>= next) = .error p := rfl

theorem pure_eq_ok : (pure a : Except Problem α) = .ok a := rfl

theorem throw_eq_error : (throw p : Except Problem α) = .error p := rfl

end Steps

/-! ### Names that are read -/

theorem run_readName (p : Place) : readName.run p =
    match p.rest with
    | .word text :: rest =>
      if isName text then .ok (text, { p with rest }) else .error (.keyword text)
    | _ => .error (.mismatch [.identifier] p.rest.isEmpty) := by
  obtain ⟨row, leftover⟩ := p
  rcases row with _ | ⟨l, row⟩
  · rfl
  · cases l with
    | word w =>
        by_cases hname : isName w = true
        · simp [readName, look, advanceTo, hname]
          rfl
        · simp [readName, look, hname]
          rfl
    | _ => rfl

/-- The result for a whole row comes from a reader that takes all of it. -/
theorem readAll_eq_ok {α : Type} {reader : Reader α} {a : α} :
    reader.readAll row = .ok a ↔ reader.run { rest := row } = .ok (a, { rest := [] }) := by
  simp only [Reader.readAll]
  rcases reader.run { rest := row } with p | ⟨b, rest, leftover⟩
  · simp [error_bind]
  · cases leftover <;> cases rest <;> simp [ok_bind, pure_eq_ok, throw_eq_error]

/-- A row is read as a name if it is one. -/
theorem readAll_readName_eq_ok :
    readName.readAll row = .ok text ↔ row = [.word text] ∧ isName text = true := by
  rw [readAll_eq_ok, run_readName]
  rcases row with _ | ⟨w | _, row⟩
  case cons.word => grind
  all_goals simp

/-! ### Marks -/

/-- Whether an attribute has the word `data` in brackets, and nothing else. -/
def Attribute.saysData (a : Attribute) : Bool :=
  match a.arguments with
  | .list _ row => row == [.word "data"]
  | _ => false

theorem Attribute.saysData_iff {a : Attribute} :
    a.saysData = true ↔ ∃ b, a.arguments = .list b [.word "data"] := by
  cases harguments : a.arguments <;> simp [saysData, harguments]

namespace Field

/-- Whether a field carries the mark of a payload. -/
def carriesMark (f : Field) : Bool := f.attributes.any fun a => a.isNode && a.saysData

/-- Whether the attribute of a field that is read is not the mark of a payload. -/
def isMismarked (f : Field) : Bool :=
  (f.attributes.find? Attribute.isNode).any fun a => !a.saysData

/-- A field that is mismarked is a problem. -/
theorem isMarked_of_isMismarked (hf : f.isMismarked = true) : ∃ p, f.isMarked = .error p := by
  simp only [isMismarked, Option.any_eq_true] at hf
  obtain ⟨a, ha, hsays⟩ := hf
  simp only [isMarked, ha, Attribute.argumentRow]
  cases harguments : a.arguments with
  | nothing => exact ⟨_, rfl⟩
  | value row => exact ⟨_, rfl⟩
  | list b row =>
      cases hread : readName.readAll row with
      | error p => exact ⟨p, by simp [ok_bind, hread, error_bind]⟩
      | ok text =>
          have htext : text ≠ "data" := by
            rintro rfl
            simp [Attribute.saysData, harguments, (readAll_readName_eq_ok.mp hread).1] at hsays
          exact ⟨.unknownMark, by simp [ok_bind, hread, htext, throw_eq_error]⟩

/-- Of any other field it is found out whether it carries the mark. -/
theorem isMarked_of_not_isMismarked (hf : f.isMismarked = false) :
    f.isMarked = .ok f.carriesMark := by
  cases hfirst : f.attributes.find? Attribute.isNode with
  | none =>
      have hmark : f.carriesMark = false := by
        rw [carriesMark, List.any_eq_false]
        intro a ha
        simp [List.find?_eq_none.mp hfirst a ha]
      simp [isMarked, hfirst, hmark]
  | some a =>
      have hsays : a.saysData = true := by simpa [isMismarked, hfirst] using hf
      have hmark : f.carriesMark = true :=
        List.any_eq_true.mpr ⟨a, List.mem_of_find?_eq_some hfirst,
          by simp [List.find?_some hfirst, hsays]⟩
      obtain ⟨b, harguments⟩ := Attribute.saysData_iff.mp hsays
      have hread : readName.readAll [.word "data"] = .ok "data" :=
        readAll_readName_eq_ok.mpr ⟨rfl, by decide⟩
      simp [isMarked, hfirst, hmark, Attribute.argumentRow, harguments, hread, ok_bind, pure_eq_ok]

/-- Whether a field claims to be the payload: it carries the mark and does not hold the links. -/
def claims (f : Field) : Bool := f.name ≠ "link" && f.carriesMark

theorem claims_iff : f.claims = true ↔ f.name ≠ "link" ∧ f.carriesMark = true := by simp [claims]

end Field

/-! ### Payloads -/

/-- Fields among which a payload can be chosen: none is mismarked and at most one claims to be the
payload. -/
structure IsClear (fields : List Field) : Prop where
  marks : ∀ f ∈ fields, f.isMismarked = false
  claims : fields.countP Field.claims ≤ 1

/-- A field is the payload among others: it claims to be, or it is named `data` where none does. -/
def IsPayload (fields : List Field) (f : Field) : Prop :=
  f ∈ fields ∧ (f.claims = true ∨ f.name = "data" ∧ ∀ g ∈ fields, g.claims = false)

/-- One more field leaves the others clear if it is not mismarked, and is the only one that claims to
be the payload if it does. -/
theorem isClear_concat : IsClear (u ++ [f]) ↔
    IsClear u ∧ f.isMismarked = false ∧ (f.claims = true → ∀ g ∈ u, g.claims = false) := by
  have hnone : (∀ g ∈ u, g.claims = false) ↔ u.countP Field.claims = 0 := by
    simp [List.countP_eq_zero]
  have hcount : (u ++ [f]).countP Field.claims =
      u.countP Field.claims + if f.claims then 1 else 0 := by
    simp [List.countP_append, List.countP_singleton]
  rw [hnone]
  constructor
  · rintro ⟨hmarks, hclaims⟩
    rw [hcount] at hclaims
    refine ⟨⟨fun g hg => hmarks g (by simp [hg]), by omega⟩, hmarks f (by simp), fun hf => ?_⟩
    simp only [hf, if_true] at hclaims
    omega
  · rintro ⟨⟨hmarks, hclaims⟩, hmark, hclaim⟩
    refine ⟨fun g hg => ?_, ?_⟩
    · rcases List.mem_append.mp hg with hg | hg
      · exact hmarks g hg
      · rwa [List.mem_singleton.mp hg]
    · rw [hcount]
      split
      next hf => simp [hclaim hf]
      next => exact hclaims

theorem IsClear.of_perm {v : List Field} (hu : IsClear u) (hperm : u.Perm v) : IsClear v :=
  ⟨fun f hf => hu.marks f (hperm.mem_iff.mpr hf), hperm.countP_eq Field.claims ▸ hu.claims⟩

theorem isPayload_congr {v : List Field} (hperm : u.Perm v) : IsPayload u f ↔ IsPayload v f := by
  simp only [IsPayload, hperm.mem_iff]

/-- There is no payload if no field claims to be or is named `data`. -/
theorem forall_not_isPayload :
    (∀ g, ¬IsPayload u g) ↔ ∀ g ∈ u, g.claims = false ∧ g.name ≠ "data" := by
  constructor
  · intro hnone
    have hclaims : ∀ g ∈ u, g.claims = false := fun g hg =>
      Bool.eq_false_iff.mpr fun hclaims => hnone g ⟨hg, .inl hclaims⟩
    exact fun g hg => ⟨hclaims g hg, fun hdata => hnone g ⟨hg, .inr ⟨hdata, hclaims⟩⟩⟩
  · rintro hnone g ⟨hg, hclaims | ⟨hdata, -⟩⟩
    · simp [(hnone g hg).1] at hclaims
    · exact (hnone g hg).2 hdata

/-- A field that does not claim to be the payload changes nothing if it is not named `data`, or if
another one claims to be. -/
theorem isPayload_concat_of_not (hf : f.claims = false)
    (hdata : f.name = "data" → ∃ g ∈ u, g.claims = true) :
    IsPayload (u ++ [f]) g ↔ IsPayload u g := by
  grind [IsPayload]

/-- A field is the payload if it claims to be or is the first one named `data`, and none before it
claims to be. -/
theorem isPayload_concat_self (hnone : ∀ g ∈ u, g.claims = false)
    (hf : f.claims = true ∨ f.name = "data" ∧ ∀ g ∈ u, g.name ≠ "data") :
    IsPayload (u ++ [f]) g ↔ g = f := by
  grind [IsPayload]

/-! ### The choice that fields ask for -/

/-- A choice is the one that some fields ask for. -/
structure Choice.IsFor (c : Choice) (fields : List Field) : Prop where
  link : ∀ f, c.link = some f ↔ f ∈ fields ∧ f.name = "link"
  payload : ∀ f marked, c.payload = some (f, marked) ↔ IsPayload fields f ∧ f.carriesMark = marked

namespace Choice

/-- A field that is mismarked cannot be added. -/
theorem add_of_isMismarked (hf : f.isMismarked = true) : ∃ p, c.add f = .error p := by
  obtain ⟨p, hp⟩ := Field.isMarked_of_isMismarked hf
  exact ⟨p, by simp [add, hp, error_bind]⟩

theorem add_of_not_isMismarked (hf : f.isMismarked = false) : c.add f =
    if f.name = "link" then .ok { c with link := some f }
    else if f.claims then
      if c.hasMarked then .error .secondMark else .ok { c with payload := some (f, true) }
    else if f.name = "data" ∧ c.payload.isNone then .ok { c with payload := some (f, false) }
    else .ok c := by
  by_cases hlink : f.name = "link"
  · simp [add, Field.isMarked_of_not_isMismarked hf, hlink, ok_bind, pure_eq_ok]
  · have hclaims : f.carriesMark = f.claims := by simp [Field.claims, hlink]
    simp only [add, Field.isMarked_of_not_isMismarked hf, hlink, hclaims, ok_bind, pure_eq_ok,
      throw_eq_error, error_bind, if_false]

namespace IsFor

/-- The choice has a marked payload where a field claims to be the payload. -/
theorem hasMarked_iff (hc : c.IsFor u) : c.hasMarked = true ↔ ∃ g ∈ u, g.claims = true := by
  simp only [hasMarked, Option.any_eq_true]
  constructor
  · rintro ⟨⟨g, marked⟩, hg, rfl⟩
    obtain ⟨⟨hmem, hclaims | ⟨hdata, -⟩⟩, hmark⟩ := (hc.payload g true).mp hg
    · exact ⟨g, hmem, hclaims⟩
    · exact ⟨g, hmem, Field.claims_iff.mpr ⟨by simp [hdata], hmark⟩⟩
  · rintro ⟨g, hmem, hclaims⟩
    exact ⟨(g, true), (hc.payload g true).mpr
      ⟨⟨hmem, .inl hclaims⟩, (Field.claims_iff.mp hclaims).2⟩, rfl⟩

/-- A field that is not named `link` leaves the field of the links as it is. -/
theorem link_concat (hc : c.IsFor u) (hlink : f.name ≠ "link") (g : Field) :
    c.link = some g ↔ g ∈ u ++ [f] ∧ g.name = "link" := by
  rw [hc.link]
  grind

/-- There is no payload where no field comes into question. -/
theorem isNone_payload_iff (hc : c.IsFor u) :
    c.payload.isNone = true ↔ ∀ g ∈ u, g.claims = false ∧ g.name ≠ "data" := by
  rw [← forall_not_isPayload, Option.isNone_iff_eq_none]
  constructor
  · intro hnone g hg
    simpa [hnone] using (hc.payload g g.carriesMark).mpr ⟨hg, rfl⟩
  · intro hnone
    cases hpayload : c.payload with
    | none => rfl
    | some gm => exact absurd ((hc.payload gm.1 gm.2).mp hpayload).1 (hnone gm.1)

/-- **One more field** that is clear after the others leads to the choice that all of them ask
for. -/
theorem add (hc : c.IsFor u) (hclear : IsClear (u ++ [f]))
    (hnames : ((u ++ [f]).map Field.name).Nodup) :
    ∃ c', c.add f = .ok c' ∧ c'.IsFor (u ++ [f]) := by
  obtain ⟨-, hmark, hclaim⟩ := isClear_concat.mp hclear
  have hnew : ∀ g ∈ u, g.name ≠ f.name := by
    rw [List.map_append, List.nodup_append] at hnames
    exact fun g hg => hnames.2.2 _ (List.mem_map_of_mem hg) _ (by simp)
  rw [add_of_not_isMismarked hmark]
  split_ifs with hlink hf hmarked hdata
  -- the field of the links
  · have hf : f.claims = false := by simp [Field.claims, hlink]
    refine ⟨_, rfl, fun g => ?_, fun g marked => ?_⟩
    · grind
    · rw [isPayload_concat_of_not hf (by simp [hlink]), ← hc.payload]
  -- a second mark, which clear fields do not have
  · obtain ⟨g, hg, hclaims⟩ := hc.hasMarked_iff.mp hmarked
    simp [hclaim hf g hg] at hclaims
  -- the mark, whatever the payload was before
  · refine ⟨_, rfl, hc.link_concat hlink, fun g marked => ?_⟩
    have hcarries := (Field.claims_iff.mp hf).2
    rw [isPayload_concat_self (hclaim hf) (.inl hf)]
    grind
  -- the field named `data`, with no mark before it
  · obtain ⟨hname, hnone⟩ := hdata
    have hnone := hc.isNone_payload_iff.mp hnone
    have hcarries : f.carriesMark = false := by simpa [Field.claims, hlink] using hf
    refine ⟨_, rfl, hc.link_concat hlink, fun g marked => ?_⟩
    rw [isPayload_concat_self (fun g hg => (hnone g hg).1)
      (.inr ⟨hname, fun g hg => (hnone g hg).2⟩)]
    grind
  -- any other field: if it is named `data`, a mark is before it
  · refine ⟨_, rfl, hc.link_concat hlink, fun g marked => ?_⟩
    rw [isPayload_concat_of_not (by simpa using hf), ← hc.payload]
    intro hname
    by_contra hnone
    refine hdata ⟨hname, hc.isNone_payload_iff.mpr fun g hg => ⟨?_, ?_⟩⟩
    · grind
    · exact fun hg' => hnew g hg (hg'.trans hname.symm)

/-- A field that is not clear after the others cannot be added to the choice they ask for. -/
theorem add_of_not_isClear (hc : c.IsFor u) (hclear : IsClear u) (hnot : ¬IsClear (u ++ [f])) :
    ∃ p, c.add f = .error p := by
  by_cases hmark : f.isMismarked = true
  · exact add_of_isMismarked hmark
  · have hmark : f.isMismarked = false := by simpa using hmark
    have hclaims : f.claims = true ∧ ∃ g ∈ u, g.claims = true := by
      rw [isClear_concat] at hnot
      grind
    have hlink := (Field.claims_iff.mp hclaims.1).1
    have hmarked := hc.hasMarked_iff.mpr hclaims.2
    exact ⟨.secondMark, by simp [add_of_not_isMismarked hmark, hlink, hclaims.1, hmarked]⟩

end IsFor

end Choice

theorem choose_concat (u : List Field) (f : Field) :
    choose (u ++ [f]) = choose u >>= (·.add f) := by
  simp [choose, List.foldlM_append]

/-- Clear fields get the choice they ask for. -/
theorem choose_of_isClear (hclear : IsClear fields) (hnames : (fields.map Field.name).Nodup) :
    ∃ c, choose fields = .ok c ∧ c.IsFor fields := by
  induction fields using List.reverseRecOn with
  | nil => exact ⟨{}, rfl, by simp, by simp [IsPayload]⟩
  | append_singleton u f ih =>
      obtain ⟨c, hchoose, hc⟩ := ih (isClear_concat.mp hclear).1
        (hnames.sublist (by simp))
      obtain ⟨c', hadd, hc'⟩ := hc.add hclear hnames
      exact ⟨c', by rw [choose_concat, hchoose, ok_bind, hadd], hc'⟩

/-- Fields that are not clear get no choice. -/
theorem choose_of_not_isClear (hnot : ¬IsClear fields) (hnames : (fields.map Field.name).Nodup) :
    ∃ p, choose fields = .error p := by
  induction fields using List.reverseRecOn with
  | nil => exact absurd ⟨by simp, by simp⟩ hnot
  | append_singleton u f ih =>
      have hnames' : (u.map Field.name).Nodup := hnames.sublist (by simp)
      by_cases hclear : IsClear u
      · obtain ⟨c, hchoose, hc⟩ := choose_of_isClear hclear hnames'
        obtain ⟨p, hadd⟩ := hc.add_of_not_isClear hclear hnot
        exact ⟨p, by rw [choose_concat, hchoose, ok_bind, hadd]⟩
      · obtain ⟨p, hchoose⟩ := ih hclear hnames'
        exact ⟨p, by rw [choose_concat, hchoose, error_bind]⟩

/-! ### Declarations -/

/-- A declaration can be that of a node: it is a record, its attributes set a path, and of its fields
with different names the one named `link` has a type that can hold the links. -/
structure Item.IsNode (i : Item) (path : Row) : Prop where
  shape : i.shape = .record
  path : i.cratePath = .ok path
  names : (i.fields.map Field.name).Nodup
  link : ∃ f ∈ i.fields, f.name = "link" ∧
    ∃ isQualified isName, f.type.form = .path "DoubleLink" isQualified isName

namespace Item

variable {i : Item} {path : Row}

theorem IsNode.of_perm (hi : i.IsNode path) (hperm : fields.Perm i.fields) :
    IsNode { i with fields } path where
  shape := hi.shape
  path := hi.path
  names := (hperm.map Field.name).nodup_iff.mpr hi.names
  link := by
    obtain ⟨f, hf, hlink⟩ := hi.link
    exact ⟨f, hperm.mem_iff.mpr hf, hlink⟩

/-- The code for a node with clear fields can be found, and its payload is the one among them. -/
theorem IsNode.derive_of_isClear (hi : i.IsNode path) (hclear : IsClear i.fields) :
    ∃ payload, i.derive = .ok ⟨path, i.name, i.params, i.conditions, payload⟩ ∧
      ∀ f, payload = some f ↔ IsPayload i.fields f := by
  obtain ⟨c, hchoose, hc⟩ := choose_of_isClear hclear hi.names
  obtain ⟨link, hmem, hname, isQualified, isName, hform⟩ := hi.link
  have hlink : c.link = some link := (hc.link link).mpr ⟨hmem, hname⟩
  refine ⟨c.payload.map (·.1), ?_, fun f => ?_⟩
  · simp [derive, hi.path, hi.shape, hchoose, hlink, Field.checkLink, hform, ok_bind, pure_eq_ok]
  · rw [Option.map_eq_some_iff]
    constructor
    · rintro ⟨⟨g, marked⟩, hg, rfl⟩
      exact ((hc.payload g marked).mp hg).1
    · exact fun hf => ⟨(f, f.carriesMark), (hc.payload f _).mpr ⟨hf, rfl⟩, rfl⟩

/-- There is no code for a record whose fields are not clear. -/
theorem IsNode.derive_of_not_isClear (hi : i.IsNode path) (hnot : ¬IsClear i.fields) :
    ∃ p, i.derive = .error p := by
  obtain ⟨p, hchoose⟩ := choose_of_not_isClear hnot hi.names
  exact ⟨p, by simp [derive, hi.path, hi.shape, hchoose, ok_bind, error_bind]⟩

end Item

/-- **The code for a node does not depend on the order of its fields**, of which there may be any,
with any attributes.

* There is none where a field is mismarked or two fields other than `link` claim to be the payload.
* Otherwise it implements both links for the declared type and makes it a node.  It implements access
  to the payload if there is one: the field that is marked, or else the field named `data`, with the
  type of that field.  It consists of these implementations, and each has all that its trait asks for.
* A declaration with the same fields in another order has the same code, or none either. -/
theorem derive_regardless_of_order {i : Item} {path : Row} (hi : i.IsNode path) :
    (¬IsClear i.fields → ∃ p, i.derive = .error p) ∧
    (IsClear i.fields → ∃ payload,
      let d : Derivation := ⟨path, i.name, i.params, i.conditions, payload⟩
      let given := [d.forward, d.backward, nodeMark] ++ (payload.map Field.access).toList
      i.derive = .ok d ∧ (∀ f, payload = some f ↔ IsPayload i.fields f) ∧
        d.Gives given ∧ ∀ t ∈ given, t.IsComplete) ∧
    ∀ fields, fields.Perm i.fields →
      ∀ d, Item.derive { i with fields } = .ok d ↔ i.derive = .ok d := by
  refine ⟨hi.derive_of_not_isClear, fun hclear => ?_, fun fields hperm d => ?_⟩
  · obtain ⟨payload, hderive, hpayload⟩ := hi.derive_of_isClear hclear
    exact ⟨payload, hderive, hpayload, Derivation.gives_implementations _,
      fun t => Derivation.isComplete_of_mem⟩
  · have hi' := hi.of_perm hperm
    by_cases hclear : IsClear i.fields
    · obtain ⟨payload, hderive, hpayload⟩ := hi.derive_of_isClear hclear
      obtain ⟨payload', hderive', hpayload'⟩ := hi'.derive_of_isClear (hclear.of_perm hperm.symm)
      have hsame : payload' = payload :=
        Option.ext fun f => by rw [hpayload', hpayload, isPayload_congr hperm]
      rw [hderive, hderive', hsame]
    · obtain ⟨p, hderive⟩ := hi.derive_of_not_isClear hclear
      obtain ⟨p', hderive'⟩ := hi'.derive_of_not_isClear fun h => hclear (h.of_perm hperm)
      rw [hderive, hderive']
      simp

/-- A mark takes the payload away from the field named `data` on either side of it, and means nothing
on the field of the links. -/
theorem derive_regardless_of_order_mark_beside_data :
    let mark : Attribute := ⟨[.word "node"], .list .round [.word "data"]⟩
    let other : Attribute := ⟨[.word "doc"], .value [.literal "\"node\""]⟩
    let link : Field :=
      ⟨"link", ⟨[.word "DoubleLink", .mark '<' false, .word "Self", .mark '>' false],
        .path "DoubleLink" false true⟩, [mark]⟩
    let data : Field := ⟨"data", ⟨[.word "u8"], .path "u8" false true⟩, [other]⟩
    let size : Field := ⟨"size", ⟨[.word "u64"], .path "u64" false true⟩, [other, mark, mark]⟩
    let i : Item := { shape := .record, name := "Block", fields := [data, size, link] }
    let path : Row := [.mark ':' true, .mark ':' false, .word "heni_collections"]
    let d : Derivation := ⟨path, "Block", [], [], some size⟩
    i.IsNode path ∧ IsClear i.fields ∧ IsPayload i.fields size ∧ i.derive = .ok d ∧
      d.Gives [d.forward, d.backward, nodeMark, size.access] ∧
      Item.derive { i with fields := [size, link, data] } = .ok d := by
  intro mark other link data size i path d
  have hi : i.IsNode path :=
    ⟨rfl, by rfl, by decide, link, by decide, rfl, false, true, rfl⟩
  have hclear : IsClear i.fields := ⟨by decide, by decide⟩
  have hsize : IsPayload i.fields size := ⟨by decide, .inl (by decide)⟩
  obtain ⟨-, hcode, hperm⟩ := derive_regardless_of_order hi
  obtain ⟨payload, hderive, hpayload, hgives, -⟩ := hcode hclear
  obtain rfl := (hpayload size).mpr hsize
  exact ⟨hi, hclear, hsize, hderive, hgives, (hperm _ (by decide) _).mpr hderive⟩

end SpanChain.Derive
