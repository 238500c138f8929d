import Mathlib.Data.List.TakeWhile
import ReactiveForm.Definition.Json

/-!
# Form descriptions survive in JSON

A description that is written and read again comes back, but for binds: one without expressions is
not written. So what comes back is the description if every bind in it has an expression or is
absent altogether, and otherwise differs from it.
-/

set_option autoImplicit false

namespace ReactiveForm

/-! ## Blank texts -/

theorem Text.trim_eq_nil_iff (cs : List Char) : trim cs = [] ↔ ∀ c ∈ cs, isBlank c = true := by
  have hstart (cs : List Char) : trimStart cs = [] ↔ ∀ c ∈ cs, isBlank c = true :=
    List.dropWhile_eq_nil_iff
  unfold trim trimEnd
  rw [List.reverse_eq_nil_iff, hstart, ← hstart cs]
  constructor
  · intro h
    by_contra hne
    have hhead : isBlank ((trimStart cs).head hne) = false := List.head_dropWhile_not isBlank hne
    rw [h _ (List.mem_reverse.mpr (List.head_mem hne))] at hhead
    cases hhead
  · intro h
    rw [h]
    exact fun _ hc => absurd hc List.not_mem_nil

namespace Bind

/-- Some expression among the members is not blank. -/
def HasExpression (b : Bind) : Prop :=
  ∃ kind text, b.text kind = some text ∧ ∃ c ∈ text.toList, Text.isBlank c = false

/-- All members are absent, or there is an expression among them. -/
def Proper (b : Bind) : Prop := b = {} ∨ b.HasExpression

theorem expression_eq_none_iff (b : Bind) (kind : BindKind) : b.expression kind = none ↔
    ∀ text, b.text kind = some text → ∀ c ∈ text.toList, Text.isBlank c = true := by
  unfold expression
  cases b.text kind with
  | none => simp
  | some text =>
    have hempty : Text.trimmed text = "" ↔ Text.trim text.toList = [] := by
      rw [Text.trimmed, ← String.toList_inj, String.toList_ofList, String.toList_empty]
    simp [Option.filter_eq_none_iff, hempty, Text.trim_eq_nil_iff]

theorem isEmpty_iff (b : Bind) : b.isEmpty = true ↔ ¬ b.HasExpression := by
  have hall (kind : BindKind) : kind ∈ BindKind.all := by cases kind <;> decide
  unfold isEmpty expressions HasExpression
  simp [List.filterMap_eq_nil_iff, expression_eq_none_iff, hall]

/-- The bind as it comes back from JSON. -/
def kept (b : Bind) : Bind := if b.isEmpty then {} else b

theorem kept_eq_self_iff (b : Bind) : b.kept = b ↔ b.Proper := by
  unfold kept Proper
  by_cases h : b.HasExpression
  · have hwritten : ¬ b.isEmpty = true := fun hempty => (isEmpty_iff b).mp hempty h
    rw [if_neg hwritten]
    exact ⟨fun _ => .inr h, fun _ => rfl⟩
  · rw [if_pos ((isEmpty_iff b).mpr h), or_iff_left h]
    exact eq_comm

open Json

theorem asOptional?_ofOption (x : Option String) : asOptional? asText? (ofOption x) = some x := by
  cases x <;> rfl

theorem ofJson?_toJson (b : Bind) : ofJson? b.toJson = some b := by
  simp [ofJson?, toJson, record?, memberNames, orDefault, asOptional?_ofOption, List.lookup_cons]

end Bind

theorem Item.ofJson?_toJson (i : Item) : ofJson? i.toJson = some i := by
  simp [ofJson?, toJson, Json.record?, Json.orDefault, Json.asText?, List.lookup_cons]

theorem Itemset.ofJson?_toJson (s : Itemset) : ofJson? s.toJson = some s := by
  simp [ofJson?, toJson, Json.record?, Json.orDefault, Json.asText?, List.lookup_cons]

theorem DescriptionKind.ofJson?_name (kind : DescriptionKind) :
    ofJson? (.string kind.name) = some kind := by
  cases kind <;> rfl

namespace Description

mutual

/-- The description and all descriptions that it holds. -/
def nodes : Description → List Description
  | d@⟨_, _, _, _, _, _, children, instances, _, _, _⟩ =>
    d :: (nodesAmong children ++ nodesAmong instances)

def nodesAmong : List Description → List Description
  | [] => []
  | d :: ds => nodes d ++ nodesAmong ds

end

mutual

/-- The description as it comes back from JSON. -/
def kept : Description → Description
  | ⟨name, kind, label, hint, bind, default, children, instances, template, items, itemset⟩ =>
    ⟨name, kind, label, hint, bind.kept, default, keptAll children, keptAll instances, template,
      items, itemset⟩

def keptAll : List Description → List Description
  | [] => []
  | d :: ds => kept d :: keptAll ds

end

mutual

theorem kept_eq_self_iff : (d : Description) → (d.kept = d ↔ ∀ e ∈ d.nodes, e.bind.Proper)
  | ⟨name, kind, label, hint, bind, default, children, instances, template, items, itemset⟩ => by
    have hchildren := keptAll_eq_self_iff children
    have hinstances := keptAll_eq_self_iff instances
    have hbind := Bind.kept_eq_self_iff bind
    simp only [kept, nodes, List.forall_mem_cons, List.forall_mem_append, mk.injEq, hchildren,
      hinstances, hbind, true_and, and_true]

theorem keptAll_eq_self_iff : (ds : List Description) →
    (keptAll ds = ds ↔ ∀ e ∈ nodesAmong ds, e.bind.Proper)
  | [] => by simp [keptAll, nodesAmong]
  | d :: ds => by
    have hfirst := kept_eq_self_iff d
    have hrest := keptAll_eq_self_iff ds
    simp only [keptAll, nodesAmong, List.forall_mem_append, List.cons.injEq, hfirst, hrest]

end

/-! ## Members one by one -/

open Json

/-- The members give the description, and have their names among these. -/
structure Gives (members : List (String × Json)) (names : List String) (d : Description) :
    Prop where
  ofMembers : ofMembers members = some d
  names : ∀ p ∈ members, p.1 ∈ names

theorem gives_nil : Gives [] [] {} where
  ofMembers := by simp only [Description.ofMembers]
  names := fun _ hp => absurd hp List.not_mem_nil

theorem ofMember_eq {v : Json} (hv : ∀ vs, v ≠ .array vs) (name : String) (d : Description) :
    ofMember name v d = d.withMember name v := by
  cases v with
  | array vs => exact absurd rfl (hv vs)
  | null | bool | number | string | object | unreadable => simp only [ofMember]

theorem asOptional?_eq {α : Type} {read : Json → Option α} {v : Json} (hv : v ≠ .null) :
    asOptional? read v = (read v).map some := by
  cases v with
  | null => exact absurd rfl hv
  | array | bool | number | string | object | unreadable => rfl

theorem asList?_toJson (items : List Item) :
    asList? Item.ofJson? (.array (items.map Item.toJson)) = some items := by
  unfold asList?
  induction items with
  | nil => rfl
  | cons i items ih =>
    simp only at ih
    simp [List.mapM_cons, Item.ofJson?_toJson, ih]

namespace Gives

variable {members : List (String × Json)} {names : List String} {d : Description}
  (h : Gives members names d) (name : String) (hname : name ∉ names)

include h hname

theorem member {v : Json} {d' : Description} (hv : ofMember name v d = some d') :
    Gives ((name, v) :: members) (name :: names) d' where
  ofMembers := by
    have hnew : name ∉ members.map Prod.fst := by
      intro hmem
      obtain ⟨p, hp, rfl⟩ := List.mem_map.mp hmem
      exact hname (h.names p hp)
    simp [Description.ofMembers, h.ofMembers, hnew, hv]
  names := by
    rintro p (_ | ⟨_, hp⟩)
    · exact List.mem_cons_self
    · exact List.mem_cons_of_mem name (h.names p hp)

omit hname in
theorem skip : Gives members (name :: names) d :=
  ⟨h.ofMembers, fun p hp => List.mem_cons_of_mem name (h.names p hp)⟩

theorem optional {α : Type} (write : α → Json) (set : Option α → Description) (hnone : set none = d)
    (hsome : ∀ a, ofMember name (write a) d = some (set (some a))) (x : Option α) :
    Gives (optionalMember name (x.map write) ++ members) (name :: names) (set x) := by
  cases x with
  | none => exact hnone ▸ h.skip name
  | some a => exact h.member name hname (hsome a)

theorem conditional (written : Prop) [Decidable written] {v : Json} (d' : Description)
    (hskip : ¬ written → d' = d) (hv : written → ofMember name v d = some d') :
    Gives ((if written then [(name, v)] else []) ++ members) (name :: names) d' := by
  split
  case isTrue hw => exact h.member name hname (hv hw)
  case isFalse hw => exact hskip hw ▸ h.skip name

theorem list {α : Type} (vs : List Json) (set : List α → Description) (hnil : set [] = d)
    {xs : List α} (hset : ofMember name (.array vs) d = some (set xs))
    (hempty : vs = [] → xs = []) :
    Gives (listMember name vs ++ members) (name :: names) (set xs) := by
  cases vs with
  | nil =>
    rw [hempty rfl, hnil]
    exact h.skip name
  | cons v vs => exact h.member name hname hset

end Gives

theorem ofMember_kind (kind : DescriptionKind) (d : Description) :
    ofMember "kind" (.string kind.name) d = some { d with kind } := by
  rw [ofMember_eq (by simp), withMember, asOptional?_eq (by simp), DescriptionKind.ofJson?_name]
  rfl

theorem ofMember_bind (bind : Bind) (d : Description) :
    ofMember "bind" bind.toJson d = some { d with bind } := by
  rw [ofMember_eq (by simp [Bind.toJson]), withMember, Bind.ofJson?_toJson]
  rfl

theorem ofMember_itemset (itemset : Itemset) (d : Description) :
    ofMember "itemset" itemset.toJson d = some { d with itemset } := by
  rw [ofMember_eq (by simp [Itemset.toJson]), withMember,
    asOptional?_eq (by simp [Itemset.toJson]), Itemset.ofJson?_toJson]
  rfl

theorem ofMember_items (items : List Item) (d : Description) :
    ofMember "items" (.array (items.map Item.toJson)) d = some { d with items } := by
  simp [ofMember, withMember, asList?_toJson]

theorem keptAll_of_toJsonAll_eq_nil {ds : List Description} (h : toJsonAll ds = []) :
    keptAll ds = [] := by
  cases ds with
  | nil => rfl
  | cons d ds => simp [toJsonAll] at h

section

variable (name : String) (kind : Option DescriptionKind) (label hint : Option String) (bind : Bind)
  (default : Option String) (children instances : List Description) (template : Bool)
  (items : List Item) (itemset : Option Itemset)

/-- Members are read from the last one on. -/
theorem ofJson?_toJson_of (hchildren : ofList (toJsonAll children) = some (keptAll children))
    (hinstances : ofList (toJsonAll instances) = some (keptAll instances)) :
    ofJson? (toJson ⟨name, kind, label, hint, bind, default, children, instances, template, items,
      itemset⟩) = some ⟨name, kind, label, hint, bind.kept, default, keptAll children,
        keptAll instances, template, items, itemset⟩ := by
  -- member by member from the last, each one added in front of those already read
  have h := gives_nil.optional "itemset" (by decide) Itemset.toJson (fun itemset => { itemset }) rfl
    (fun s => ofMember_itemset s _) itemset
  replace h := h.list "items" (by decide) (items.map Item.toJson) (fun items => { items, itemset })
    rfl (ofMember_items items _) List.map_eq_nil_iff.mp
  replace h := h.conditional "template" (by decide) (template = true) (v := .bool true)
    { template, items, itemset } (by simp) (by simp +contextual [ofMember, withMember, asBool?])
  replace h := h.list "instances" (by decide) (toJsonAll instances)
    (fun instances => { instances, template, items, itemset }) rfl
    (by simp [ofMember, hinstances]) keptAll_of_toJsonAll_eq_nil
  replace h := h.list "children" (by decide) (toJsonAll children)
    (fun children => { children, instances := keptAll instances, template, items, itemset }) rfl
    (by simp [ofMember, hchildren]) keptAll_of_toJsonAll_eq_nil
  let rest : Description :=
    { children := keptAll children, instances := keptAll instances, template, items, itemset }
  replace h := h.optional "default" (by decide) Json.string
    (fun default => { rest with default }) rfl (fun s => rfl) default
  replace h := h.conditional "bind" (by decide) (¬ bind.isEmpty = true)
    (v := bind.toJson) { rest with default, bind := bind.kept }
    (by simp +contextual [Bind.kept, rest])
    (by simp +contextual [ofMember_bind, Bind.kept, rest])
  replace h := h.optional "hint" (by decide) Json.string
    (fun hint => { rest with default, bind := bind.kept, hint }) rfl (fun s => rfl) hint
  replace h := h.optional "label" (by decide) Json.string
    (fun label => { rest with default, bind := bind.kept, hint, label }) rfl (fun s => rfl) label
  replace h := h.optional "kind" (by decide) (fun kind => Json.string kind.name)
    (fun kind => { rest with default, bind := bind.kept, hint, label, kind }) rfl
    (fun kind => ofMember_kind kind _) kind
  replace h := h.member "name" (by decide) (v := .string name) rfl
  simp only [toJson, ofJson?]
  simpa only [ite_not, List.append_assoc, List.append_nil, List.cons_append, List.nil_append, rest]
    using h.ofMembers

end

mutual

theorem ofJson?_toJson : (d : Description) → ofJson? d.toJson = some d.kept
  | ⟨name, kind, label, hint, bind, default, children, instances, template, items, itemset⟩ => by
    rw [kept]
    exact ofJson?_toJson_of name kind label hint bind default children instances template items
      itemset (ofList_toJsonAll children) (ofList_toJsonAll instances)

theorem ofList_toJsonAll : (ds : List Description) → ofList (toJsonAll ds) = some (keptAll ds)
  | [] => rfl
  | d :: ds => by
    simp [toJsonAll, ofList, keptAll, ofJson?_toJson d, ofList_toJsonAll ds]

end

/-- A description survives in JSON exactly if all its binds are proper. -/
theorem ofJson?_toJson_eq_self_iff (d : Description) :
    ofJson? d.toJson = some d ↔ ∀ e ∈ d.nodes, e.bind.Proper := by
  rw [ofJson?_toJson, Option.some.injEq, kept_eq_self_iff]

-- a message without any expression is lost
example : ofJson? (toJson { bind := { constraintMessage := some "no" } }) = some {} := by rfl

end Description

end ReactiveForm
