import ReactiveForm.CommandLine.Command
import ReactiveForm.Proofs.CommandLine.Order
import ReactiveForm.Proofs.Expr.Name

/-!
# Changes on a command line

Options may be written in two ways and stand in any order. The command that is read from them has
their changes in this order.
-/

set_option autoImplicit false

namespace ReactiveForm

namespace ChangeKind

theorem ofName?_name (kind : ChangeKind) : ofName? kind.name = some kind := by
  cases kind <;> decide

theorem name_of_ofName? {name : String} {kind : ChangeKind} (h : ofName? name = some kind) :
    kind.name = name := by
  simpa using List.find?_some h

end ChangeKind

namespace Arguments

/-- The arguments write the options one after the other, the value of each behind an equals sign or
in the next argument, where nothing but a lone hyphen starts with one. A double hyphen may end the
options. -/
inductive Writes (known : List String) : List (String × String) → List String → Prop
  | nothing : Writes known [] []
  | ended : Writes known [] ["--"]
  | joined {name : String} {options : List (String × String)} {args : List String}
    (value : String) : name ∈ known → Writes known options args →
    Writes known ((name, value) :: options) (("--" ++ name ++ "=" ++ value) :: args)
  | apart {name value : String} {options : List (String × String)} {args : List String} :
    name ∈ known → isDashed value = false → Writes known options args →
    Writes known ((name, value) :: options) (("--" ++ name) :: value :: args)

/-- The texts of changes among the options, in their order. -/
def changesOf (options : List (String × String)) : List (ChangeKind × String) :=
  options.filterMap fun (name, text) => (ChangeKind.ofName? name).map fun kind => (kind, text)

/-! ## Sorting arguments -/

variable {known args : List String} {options : List (String × String)} {name value : String}

theorem option?_joined (h : '=' ∉ name.toList) (value : String) :
    option? ("--" ++ name ++ "=" ++ value) = some (name, some value) := by
  have htext : ("--" ++ name ++ "=" ++ value).toList
      = '-' :: '-' :: (name.toList ++ '=' :: value.toList) := by simp
  have hname := Expr.forall_bne_of_not_mem h
  have hstop : Expr.NoneInFront (· != '=') ('=' :: value.toList) :=
    Expr.noneInFront_cons (by decide) value.toList
  simp only [option?, htext, Expr.takeWhile_append_rest hname hstop,
    Expr.dropWhile_append_rest hname hstop, String.ofList_toList]

theorem option?_apart (h : '=' ∉ name.toList) : option? ("--" ++ name) = some (name, none) := by
  have htext : ("--" ++ name).toList = '-' :: '-' :: name.toList := by simp
  have hname := Expr.forall_bne_of_not_mem h
  have htake : name.toList.takeWhile (· != '=') = name.toList := List.takeWhile_eq_self_iff.mpr hname
  have hdrop : name.toList.dropWhile (· != '=') = [] := List.dropWhile_eq_nil_iff.mpr hname
  simp only [option?, htext, htake, hdrop, String.ofList_toList]

/-- The options are found again in the arguments that write them. -/
theorem sort_of_writes (hknown : ∀ name ∈ known, name ≠ "" ∧ '=' ∉ name.toList)
    (h : Writes known options args) : sort known args = some { options } := by
  induction h with
  | nothing => rfl
  | ended => rfl
  | @joined name options args value hname _ ih =>
    -- an option has a name, so it is not the mark that ends the options
    have hne : "--" ++ name ++ "=" ++ value ≠ "--" := by
      intro heq
      have htext := congrArg String.toList heq
      simp at htext
    have hcontains : known.contains name = true := List.contains_iff_mem.mpr hname
    rw [sort, if_neg hne, option?_joined (hknown name hname).2]
    dsimp only
    rw [if_pos hcontains, ih]
    rfl
  | @apart name value options args hname hvalue _ ih =>
    have hne : "--" ++ name ≠ "--" := by
      intro heq
      have htext := congrArg String.toList heq
      simp [(hknown name hname).1] at htext
    have hcontains : known.contains name = true := List.contains_iff_mem.mpr hname
    rw [sort, if_neg hne, option?_apart (hknown name hname).2]
    dsimp only
    rw [hcontains, hvalue, if_pos (by decide), ih]
    rfl

/-! ## Changes among options -/

/-- The changes among the options, with the places of these from a number on. -/
def placedFrom : (place : Nat) → List (String × String) → List PlacedChange
  | _, [] => []
  | place, (name, text) :: options =>
    match ChangeKind.ofName? name with
    | none => placedFrom (place + 1) options
    | some kind => ⟨place, kind, text⟩ :: placedFrom (place + 1) options

theorem map_placedFrom (place : Nat) (options : List (String × String)) :
    (placedFrom place options).map (fun g => (g.kind, g.text)) = changesOf options := by
  fun_induction placedFrom place options with
  | case1 => rfl
  | case2 place name text options hname ih => simpa [changesOf, hname] using ih
  | case3 place name text options kind hname ih => simpa [changesOf, hname] using ih

theorem le_place_of_mem (place : Nat) (options : List (String × String)) :
    ∀ g ∈ placedFrom place options, place ≤ g.place := by
  fun_induction placedFrom place options with
  | case1 => exact List.forall_mem_nil _
  | case2 place name text options hname ih => exact fun g hg => Nat.le_of_succ_le (ih g hg)
  | case3 place name text options kind hname ih =>
    exact List.forall_mem_cons.mpr
      ⟨Nat.le_refl place, fun g hg => Nat.le_of_succ_le (ih g hg)⟩

theorem increasing_placedFrom (place : Nat) (options : List (String × String)) :
    PlacedChange.Increasing (placedFrom place options) := by
  fun_induction placedFrom place options with
  | case1 => exact .nil
  | case2 place name text options hname ih => exact ih
  | case3 place name text options kind hname ih =>
    exact .cons (fun g hg => le_place_of_mem (place + 1) options g hg) ih

/-- An option belongs to a kind if it has the name of the kind. -/
theorem beq_name {k : Option ChangeKind} (h : ChangeKind.ofName? name = k) (kind : ChangeKind) :
    (name == kind.name) = decide (k = some kind) := by
  rw [Bool.eq_iff_iff, beq_iff_eq, decide_eq_true_eq, ← h]
  constructor
  · rintro rfl
    exact ChangeKind.ofName?_name kind
  · exact fun hname => (ChangeKind.name_of_ofName? hname).symm

theorem textsOf_placedFrom (place : Nat) (options : List (String × String)) (kind : ChangeKind) :
    PlacedChange.textsOf (placedFrom place options) kind
      = (options.filter (·.1 == kind.name)).map Prod.snd := by
  fun_induction placedFrom place options with
  | case1 => rfl
  | case2 place name text options hname ih =>
    rw [List.filter_cons, beq_name hname]
    exact ih
  | case3 place name text options k hname ih =>
    rw [List.filter_cons, beq_name hname]
    by_cases h : k = kind
    · subst h
      simpa [PlacedChange.textsOf] using ih
    · simpa [PlacedChange.textsOf, h] using ih

theorem placesOf_placedFrom (place : Nat) (options : List (String × String)) (kind : ChangeKind) :
    PlacedChange.placesOf (placedFrom place options) kind
      = ((options.zipIdx place).filter (·.1.1 == kind.name)).map Prod.snd := by
  fun_induction placedFrom place options with
  | case1 => rfl
  | case2 place name text options hname ih =>
    rw [List.zipIdx_cons, List.filter_cons, beq_name hname]
    exact ih
  | case3 place name text options k hname ih =>
    rw [List.zipIdx_cons, List.filter_cons, beq_name hname]
    by_cases h : k = kind
    · subst h
      simpa [PlacedChange.placesOf] using ih
    · simpa [PlacedChange.placesOf, h] using ih

/-- The options that ask for changes carry these in their order. -/
theorem carries_changes (a : Arguments) : a.changes.Carries (changesOf a.options) := by
  have htexts : (fun kind => a.values kind.name)
      = PlacedChange.textsOf (placedFrom 0 a.options) :=
    funext fun kind => (textsOf_placedFrom 0 a.options kind).symm
  have hplaces : (fun kind => a.places kind.name)
      = PlacedChange.placesOf (placedFrom 0 a.options) :=
    funext fun kind => (placesOf_placedFrom 0 a.options kind).symm
  have hcarries := PlacedChange.carries_ofPlaces (increasing_placedFrom 0 a.options)
  rwa [map_placedFrom, ← htexts, ← hplaces] at hcarries

end Arguments

namespace Command

/-- The names of the options that a snapshot takes. -/
def snapshotNames : List String :=
  ["log-level", "form", "format"] ++ ChangeKind.all.map ChangeKind.name

/-- What may stand in front of the name of a command. -/
inductive Leads : List String → Prop
  | nothing : Leads []
  | apart {level : String} : (LogLevel.ofName? level).isSome → Leads ["--log-level", level]
  | joined {level : String} : (LogLevel.ofName? level).isSome →
    Leads ["--" ++ "log-level" ++ "=" ++ level]

theorem forall_snapshotNames : ∀ name ∈ snapshotNames, name ≠ "" ∧ '=' ∉ name.toList := by
  decide +kernel

/-- The log level in front does not matter to the arguments behind the name of the command. -/
theorem ofArguments?_snapshot {front : List String} (h : Leads front) (args : List String) :
    ofArguments? (front ++ "snapshot" :: args) = ofSnapshot? args := by
  cases h with
  | nothing =>
    have hword : Arguments.option? "snapshot" = none := by decide +kernel
    rw [List.nil_append, ofArguments?.eq_def]
    split
    · next heq => cases heq
    · next heq => exact absurd (List.cons.inj heq).1 (by decide)
    · next heq =>
      cases heq
      simp only [hword]
      rfl
  | @apart level hlevel =>
    rw [List.cons_append, List.singleton_append, ofArguments?, if_pos hlevel]
    rfl
  | @joined level hlevel =>
    have hoption : Arguments.option? ("--" ++ "log-level" ++ "=" ++ level)
        = some ("log-level", some level) :=
      Arguments.option?_joined (by decide +kernel) level
    have hne : "--" ++ "log-level" ++ "=" ++ level ≠ "--log-level" := by
      intro heq
      have htext := congrArg String.toList heq
      simp at htext
    rw [List.singleton_append, ofArguments?.eq_def]
    split
    · next heq => cases heq
    · next heq => exact absurd (List.cons.inj heq).1 hne
    · next heq =>
      cases heq
      simp only [hoption, hlevel, if_true]
      rfl

theorem ofSnapshot?_eq_some {args : List String} {a : Arguments} {path : String}
    {format : OutputFormat} (hsort : Arguments.sort snapshotNames args = some a)
    (hlevel : a.hasLogLevel = true) (hwords : a.words = []) (hform : a.form? = some (some path))
    (hformat : a.format? = some format) :
    ofSnapshot? args = some (.snapshot path a.changes format) := by
  change (Arguments.sort snapshotNames args).bind _ = _
  rw [hsort]
  simp [hlevel, hwords, hform, hformat]

/-- Changes come in the order of the options that ask for them.

Let the options for changes have increasing places, and let the texts and the places be given kind
by kind. Then the options ask for one change each, in their order and from their own texts; and they
do not exactly if one of the texts is wrong, the first of which is reported. So a snapshot whose
other options are in order makes the changes that its arguments ask for in the order of the
arguments, however the options are written and mixed. -/
theorem changes_in_order :
    (∀ given : List PlacedChange, PlacedChange.Increasing given →
      (ChangeOptions.ofPlaces (PlacedChange.textsOf given) (PlacedChange.placesOf given)).Carries
        (given.map fun g => (g.kind, g.text))) ∧
    ∀ front options args path format, Leads front →
      Arguments.Writes snapshotNames options args →
      Arguments.hasLogLevel { options } = true →
      Arguments.form? { options } = some (some path) →
      Arguments.format? { options } = some format →
      ∃ o, ofArguments? (front ++ "snapshot" :: args) = some (.snapshot path o format) ∧
        o.Carries (Arguments.changesOf options) := by
  refine ⟨fun given => PlacedChange.carries_ofPlaces, ?_⟩
  intro front options args path format hfront hwrites hlevel hform hformat
  have hsort := Arguments.sort_of_writes forall_snapshotNames hwrites
  refine ⟨_, ?_, Arguments.carries_changes { options }⟩
  rw [ofArguments?_snapshot hfront]
  exact ofSnapshot?_eq_some hsort hlevel rfl hform hformat

/-- The first value is joined to its option and the later ones are written apart; the text of the last
holds no value, and it is kept in its place all the same. -/
theorem changes_in_order_mixed :
    let given : List PlacedChange := [⟨2, .add, "/f/r"⟩, ⟨5, .set, "/f/a=1"⟩, ⟨6, .add, "/f/r:0"⟩]
    (ChangeOptions.ofPlaces (PlacedChange.textsOf given) (PlacedChange.placesOf given)).Carries
      [(.add, "/f/r"), (.set, "/f/a=1"), (.add, "/f/r:0")] ∧
    ∃ o, ofArguments? ["--log-level", "warn", "snapshot", "--set=/f/a=1", "--form", "f.json",
        "--add", "/f/r:0:2", "--set", "/f/b"] = some (.snapshot "f.json" o .text) ∧
      o.Carries [(.set, "/f/a=1"), (.add, "/f/r:0:2"), (.set, "/f/b")] := by
  obtain ⟨hplaces, hline⟩ := changes_in_order
  have hwrites : Arguments.Writes snapshotNames
      [("set", "/f/a=1"), ("form", "f.json"), ("add", "/f/r:0:2"), ("set", "/f/b")]
      ["--" ++ "set" ++ "=" ++ "/f/a=1", "--" ++ "form", "f.json", "--" ++ "add", "/f/r:0:2",
        "--" ++ "set", "/f/b"] :=
    .joined _ (by decide) <| .apart (by decide) (by decide +kernel) <|
      .apart (by decide) (by decide +kernel) <| .apart (by decide) (by decide +kernel) .nothing
  have hargs : ["--log-level", "warn", "snapshot", "--set=/f/a=1", "--form", "f.json", "--add",
      "/f/r:0:2", "--set", "/f/b"] = ["--log-level", "warn"] ++ "snapshot" :: ["--" ++ "set" ++ "="
        ++ "/f/a=1", "--" ++ "form", "f.json", "--" ++ "add", "/f/r:0:2", "--" ++ "set", "/f/b"] := by
    decide +kernel
  refine ⟨hplaces _ (by unfold PlacedChange.Increasing; decide), ?_⟩
  rw [hargs]
  exact hline _ _ _ "f.json" .text (.apart (by decide)) hwrites (by decide +kernel)
    (by decide +kernel) (by decide +kernel)

end Command

end ReactiveForm
