import ReactiveForm.Function.Builtin

/-!
# Registered functions

What a library becomes when functions are registered with it, one after the other. A registration
succeeds if its types can be read and its name is new; then the library has one name more. So what
a name means never changes again once it means anything.
-/

set_option autoImplicit false

namespace ReactiveForm

/-- The types of a function, given as such or by their tags. -/
inductive Signature where
  | typed (parameters : List ValueType) (result : ValueType)
  | tagged (parameterTags : List String) (resultTag : String)

/-- The types, unless some tag is unknown. -/
def Signature.types? : Signature → Option (List ValueType × ValueType)
  | typed parameters result => some (parameters, result)
  | tagged parameterTags resultTag => do
    let parameters ← parameterTags.mapM ValueType.ofTag?
    let result ← ValueType.ofTag? resultTag
    some (parameters, result)

section

variable (N : Type) [DecidableEq N] [Ord N]

/-- What the host asks for when it registers a function. -/
structure Registration where
  name : String
  signature : Signature
  body : Body N

end

variable {N : Type} [DecidableEq N] [Ord N]

/-- A function of the host, with as many parameters as it declares types. -/
def Function.host (parameters : List ValueType) (result : ValueType) (body : Body N) :
    Function N where
  minArguments := parameters.length
  maxArguments := some parameters.length
  parameters := parameters.map some
  result := some result
  builtin := false
  body

/-- The function that is asked for. -/
def Registration.function? (r : Registration N) : Option (Function N) :=
  r.signature.types?.map fun (parameters, result) => .host parameters result r.body

namespace Library

def attempt (l : Library N) (r : Registration N) : Except RegistrationError (Library N) :=
  match r.signature with
  | .typed parameters result => l.registerTyped r.name parameters result r.body
  | .tagged parameterTags resultTag => l.register r.name parameterTags resultTag r.body

/-- The library after an attempt, which may have failed. -/
def afterAttempt (l : Library N) (r : Registration N) : Library N :=
  match l.attempt r with
  | .ok l' => l'
  | .error _ => l

def afterAll (l : Library N) (rs : List (Registration N)) : Library N := rs.foldl afterAttempt l

variable {l l' : Library N} {r : Registration N} {f : Function N}

theorem mapM_ofTag? {tags : List String} (h : ∀ tag ∈ tags, (ValueType.ofTag? tag).isSome) :
    tags.mapM ValueType.ofTag? = some (tags.filterMap ValueType.ofTag?) := by
  induction tags with
  | nil => rfl
  | cons tag tags ih =>
    obtain ⟨type, htype⟩ := Option.isSome_iff_exists.mp (h tag List.mem_cons_self)
    have hrest := ih fun t ht => h t (List.mem_cons_of_mem tag ht)
    rw [List.mapM_cons, htype, hrest, List.filterMap_cons_some htype]
    rfl

theorem mapM_ofTag?_eq_none {tags : List String} {tag : String} (hmem : tag ∈ tags)
    (h : ValueType.ofTag? tag = none) : tags.mapM ValueType.ofTag? = none := by
  induction tags with
  | nil => exact absurd hmem List.not_mem_nil
  | cons t tags ih =>
    rw [List.mapM_cons]
    rcases List.mem_cons.mp hmem with rfl | hmem
    · rw [h]
      rfl
    · rw [ih hmem]
      cases ValueType.ofTag? t <;> rfl

/-- An attempt adds the function that is asked for, where its types can be read and no function has
its name. -/
theorem attempt_eq_ok_iff : l.attempt r = .ok l' ↔
    ∃ f, r.function? = some f ∧ l.find? r.name = none ∧ l' = ⟨l.entries ++ [(r.name, f)]⟩ := by
  have htyped (parameters : List ValueType) (result : ValueType) :
      l.registerTyped r.name parameters result r.body = .ok l' ↔ l.find? r.name = none ∧
        l' = ⟨l.entries ++ [(r.name, .host parameters result r.body)]⟩ := by
    unfold registerTyped
    cases l.find? r.name with
    | some g => simp
    | none =>
      constructor
      · intro h
        exact ⟨rfl, (Except.ok.inj h).symm⟩
      · rintro ⟨_, rfl⟩
        rfl
  unfold attempt Registration.function?
  cases r.signature with
  | typed parameters result => simp [Signature.types?, htyped]
  | tagged parameterTags resultTag =>
    dsimp only [register, Signature.types?]
    split
    next hunsupported =>
      obtain ⟨tag, hmem, htag⟩ : ∃ tag ∈ parameterTags, ValueType.ofTag? tag = none := by
        simpa using hunsupported
      simp [mapM_ofTag?_eq_none hmem htag]
    next hsupported =>
      have hall : ∀ tag ∈ parameterTags, (ValueType.ofTag? tag).isSome := by
        simpa [Option.isSome_iff_ne_none] using hsupported
      rw [mapM_ofTag? hall]
      cases hresult : ValueType.ofTag? resultTag with
      | none => simp
      | some result => simp [htyped]

theorem find?_append_singleton (l : Library N) (name key : String) (f : Function N) :
    find? ⟨l.entries ++ [(key, f)]⟩ name
      = (l.find? name).or (if name = key then some f else none) := by
  unfold find?
  rw [List.lookup_append]
  by_cases h : name = key
  · simp [h]
  · have hkey : (name == key) = false := beq_eq_false_iff_ne.mpr h
    simp [h, List.lookup_cons, hkey]

/-- A name means what it has meant before, or else what the attempt gives it. -/
theorem find?_afterAttempt (l : Library N) (r : Registration N) (name : String) :
    (l.afterAttempt r).find? name
      = (l.find? name).or (if r.name = name then r.function? else none) := by
  unfold afterAttempt
  cases hattempt : l.attempt r with
  | ok l' =>
    obtain ⟨f, hf, hnew, rfl⟩ := attempt_eq_ok_iff.mp hattempt
    dsimp only
    rw [find?_append_singleton, hf]
    simp only [eq_comm]
  | error e =>
    by_cases hname : r.name = name
    · subst hname
      rw [if_pos rfl]
      cases hold : l.find? r.name with
      | some g => rfl
      | none =>
        cases hf : r.function? with
        | none => rfl
        | some f =>
          cases hattempt.symm.trans (attempt_eq_ok_iff.mpr ⟨f, hf, hold, rfl⟩)
    · rw [if_neg hname, Option.or_none]

/-- What comes of an attempt. -/
structure Attempted (l : Library N) (r : Registration N) : Prop where
  /-- It succeeds where the types can be read and the name is new. -/
  succeeds_iff : (∃ l', l.attempt r = .ok l') ↔ r.function?.isSome ∧ l.find? r.name = none
  /-- If it fails, the library stays as it is. -/
  fails : ∀ e, l.attempt r = .error e → l.afterAttempt r = l
  /-- If it succeeds, its own name is added, and nothing else. -/
  adds : ∀ l', l.attempt r = .ok l' → l.afterAttempt r = l' ∧
    ∀ name, l'.find? name = if name = r.name then r.function? else l.find? name

theorem attempted (l : Library N) (r : Registration N) : l.Attempted r where
  succeeds_iff := by
    rw [Option.isSome_iff_exists]
    constructor
    · rintro ⟨l', h⟩
      obtain ⟨f, hf, hnew, _⟩ := attempt_eq_ok_iff.mp h
      exact ⟨⟨f, hf⟩, hnew⟩
    · rintro ⟨⟨f, hf⟩, hnew⟩
      exact ⟨_, attempt_eq_ok_iff.mpr ⟨f, hf, hnew, rfl⟩⟩
  fails := by
    intro e h
    rw [afterAttempt, h]
  adds := by
    intro l' h
    have hafter : l.afterAttempt r = l' := by rw [afterAttempt, h]
    obtain ⟨_, _, hnew, _⟩ := attempt_eq_ok_iff.mp h
    refine ⟨hafter, fun name => ?_⟩
    rw [← hafter, find?_afterAttempt]
    by_cases hname : name = r.name
    · rw [hname, hnew, if_pos rfl, Option.none_or]
    · rw [if_neg hname, if_neg (Ne.symm hname), Option.or_none]

/-- After any attempts, a name means what it has meant before, or else what the first attempt gives
it that asks for a function which can be had. -/
theorem find?_afterAll (l : Library N) (rs : List (Registration N)) (name : String) :
    (l.afterAll rs).find? name
      = (l.find? name).or (rs.findSome? fun r => if r.name = name then r.function? else none) := by
  induction rs generalizing l with
  | nil => exact Option.or_none.symm
  | cons r rs ih =>
    have hrest := ih (l.afterAttempt r)
    rw [find?_afterAttempt, Option.or_assoc] at hrest
    rw [List.findSome?_cons]
    refine hrest.trans (congrArg _ ?_)
    cases (if r.name = name then r.function? else none) <;> rfl

end Library

end ReactiveForm
