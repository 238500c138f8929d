import ReactiveForm.Proofs.Definition.Parts
import ReactiveForm.Tree.Growth

/-!
# Growth of well-formed trees

The nodes made for a definition hang together below the node made first, each lists those that name
it as their parent, and no node that was there before is touched. So a tree is well formed when a
form starts, and stays so as instances come and go.
-/

set_option autoImplicit false

namespace ReactiveForm

/-- Whether a node of the type may have the content. -/
def Content.suits : Content → NodeType → Bool
  | .text _, type => type = .value
  | .selection _, type => type = .select
  | .inner, type => !type.isLeaf

theorem Content.suits_initial (d : Definition) : (Content.initial d).suits d.type := by
  cases d <;> rfl

namespace Arena

/-- The node stands below `top`, or is that node. -/
inductive Hangs (a : Arena Node) (top : NodeId) : NodeId → Prop where
  | here : Hangs a top top
  | step {x p : NodeId} {n : Node} :
    a.get? x = some n → n.parent = some p → Hangs a top p → Hangs a top x

theorem Hangs.mono {a a' : Arena Node} {top x : NodeId} (h : a.Hangs top x)
    (hkept : ∀ {y n}, a.get? y = some n → ∃ n', a'.get? y = some n' ∧ n'.parent = n.parent) :
    a'.Hangs top x := by
  induction h with
  | here => exact .here
  | step hn hp _ ih =>
    obtain ⟨n', hn', hparent⟩ := hkept hn
    exact .step hn' (hparent.trans hp) ih

theorem Hangs.trans {a : Arena Node} {top x y : NodeId} (hx : a.Hangs top x)
    (hy : a.Hangs x y) : a.Hangs top y := by
  induction hy with
  | here => exact hx
  | step hn hp _ ih => exact .step hn hp ih

/-- A node that is new in `a'` has its place below one of the nodes `tops`. Where `typed` holds, the
node above it may hold it. -/
structure Placed (typed : Prop) (a a' : Arena Node) (tops : List NodeId) (x : NodeId) (n : Node) :
    Prop where
  up : x ∈ tops ∨ ∃ p m, n.parent = some p ∧ a.get? p = none ∧ a'.get? p = some m ∧
    x ∈ m.children ∧ (typed → m.definition.type.holds n.definition.type)
  down : ∀ c ∈ n.children, a.get? c = none ∧ ∃ k, a'.get? c = some k ∧ k.parent = some x
  distinct : n.children.Nodup
  filled : n.content.suits n.definition.type
  hangs : ∃ top ∈ tops, a'.Hangs top x

/-- `a'` holds what `a` holds and new nodes besides: nodes `tops` for the definitions `ds` below
`parent`, and nodes below these. -/
structure Grown (typed : Prop) (a a' : Arena Node) (parent : Option NodeId) (tops : List NodeId)
    (ds : List Definition) : Prop where
  sound : a'.Sound
  size : a.size ≤ a'.size
  kept : ∀ {x n}, a.get? x = some n → a'.get? x = some n
  tops_new : List.Forall₂ (fun id d => a.get? id = none ∧
    ∃ n, a'.get? id = some n ∧ n.definition = d ∧ n.parent = parent) tops ds
  distinct : tops.Nodup
  placed : ∀ {x n}, a.get? x = none → a'.get? x = some n → Placed typed a a' tops x n
  stems : ∀ {x n}, a.get? x = none → a'.get? x = some n → n.definition ∈ Definition.partsAmong ds
  status : ∀ {x n}, a.get? x = none → a'.get? x = some n → n.status = { items := n.definition.items }
  content : ∀ {x n}, a.get? x = none → a'.get? x = some n → n.content = .initial n.definition

namespace Grown

variable {typed : Prop} {a a₁ a₂ : Arena Node} {parent : Option NodeId} {tops : List NodeId}
  {ds : List Definition}

theorem nil (h : a.Sound) : Grown typed a a parent [] [] where
  sound := h
  size := Nat.le_refl _
  kept := id
  tops_new := .nil
  distinct := List.nodup_nil
  placed := fun hnone hsome => nomatch hnone.symm.trans hsome
  stems := fun hnone hsome => nomatch hnone.symm.trans hsome
  status := fun hnone hsome => nomatch hnone.symm.trans hsome
  content := fun hnone hsome => nomatch hnone.symm.trans hsome

/-- A node that was not there before was not there at the start. -/
theorem get?_eq_none (h : Grown typed a a₁ parent tops ds) {x : NodeId} (hx : a₁.get? x = none) :
    a.get? x = none := by
  cases hn : a.get? x with
  | none => rfl
  | some n => exact nomatch hx.symm.trans (h.kept hn)

theorem exists_top (h : Grown typed a a₁ parent tops ds) {x : NodeId} (hx : x ∈ tops) :
    ∃ d ∈ ds, a.get? x = none ∧ ∃ n, a₁.get? x = some n ∧ n.definition = d ∧ n.parent = parent := by
  have hnew := h.tops_new
  clear h
  induction hnew with
  | nil => exact absurd hx List.not_mem_nil
  | cons htop _ ih =>
    rcases List.mem_cons.mp hx with rfl | hx
    · exact ⟨_, List.mem_cons_self, htop⟩
    · obtain ⟨d, hd, hn⟩ := ih hx
      exact ⟨d, List.mem_cons_of_mem _ hd, hn⟩

/-- A leaf. -/
theorem leaf (h : a.Sound) (d : Definition) :
    Grown typed a (a.alloc (.fresh d parent)).2 parent [(a.alloc (.fresh d parent)).1] [d] where
  sound := h.alloc _
  size := size_le_size_alloc _
  kept := h.get?_alloc_kept _
  tops_new := .cons ⟨h.get?_alloc_fresh _, .fresh d parent, h.get?_alloc_self _, rfl, rfl⟩ .nil
  distinct := List.nodup_singleton _
  placed := by
    intro x n hnone hx
    obtain ⟨rfl, rfl⟩ := h.eq_of_get?_alloc hnone hx
    exact ⟨.inl (List.mem_singleton_self _), fun _ hc => absurd hc List.not_mem_nil,
      List.nodup_nil, Content.suits_initial d, _, List.mem_singleton_self _, .here⟩
  stems := by
    intro x n hnone hx
    obtain ⟨_, rfl⟩ := h.eq_of_get?_alloc hnone hx
    exact List.mem_append_left _ d.self_mem_parts
  status := by
    intro x n hnone hx
    obtain ⟨_, rfl⟩ := h.eq_of_get?_alloc hnone hx
    rfl
  content := by
    intro x n hnone hx
    obtain ⟨_, rfl⟩ := h.eq_of_get?_alloc hnone hx
    rfl

/-- A node after a growth was there already, or has grown. -/
theorem get?_or_new (h : Grown typed a a₁ parent tops ds) {x : NodeId} {n : Node}
    (hx : a₁.get? x = some n) : a.get? x = some n ∨ a.get? x = none := by
  cases hn : a.get? x with
  | none => exact .inr rfl
  | some m => exact .inl ((h.kept hn).symm.trans hx)

theorem placed_mono (h : Grown typed a₁ a₂ parent tops ds) {ids : List NodeId} {x : NodeId} {n : Node}
    (hx : Placed typed a a₁ ids x n) : Placed typed a a₂ ids x n where
  up := by
    rcases hx.up with htop | ⟨p, m, hp, hnone, hm, hrest⟩
    · exact .inl htop
    · exact .inr ⟨p, m, hp, hnone, h.kept hm, hrest⟩
  down := by
    intro c hc
    obtain ⟨hnone, k, hk, hparent⟩ := hx.down c hc
    exact ⟨hnone, k, h.kept hk, hparent⟩
  distinct := hx.distinct
  filled := hx.filled
  hangs := by
    obtain ⟨top, htop, hhangs⟩ := hx.hangs
    exact ⟨top, htop, hhangs.mono fun hn => ⟨_, h.kept hn, rfl⟩⟩

/-- What has grown below the first of two growths has grown below both. -/
theorem placed_cons {id : NodeId} {d : Definition} (h : Grown typed a a₁ parent [id] [d])
    (h' : Grown typed a₁ a₂ parent tops ds) {x : NodeId} {n : Node} (hnone : a.get? x = none)
    (hx : a₂.get? x = some n) : Placed typed a a₂ (id :: tops) x n := by
  rcases h'.get?_or_new hx with hx₁ | hx₁
  · have hplaced := h'.placed_mono (h.placed hnone hx₁)
    have htops : [id] ⊆ id :: tops := by simp
    obtain ⟨top, htop, hhangs⟩ := hplaced.hangs
    exact
      { hplaced with
        up := hplaced.up.imp_left fun htop => htops htop
        hangs := ⟨top, htops htop, hhangs⟩ }
  · have hplaced := h'.placed hx₁ hx
    refine ⟨?_, ?_, hplaced.distinct, hplaced.filled, ?_⟩
    · rcases hplaced.up with htop | ⟨p, m, hp, hnone, hrest⟩
      · exact .inl (List.mem_cons_of_mem id htop)
      · exact .inr ⟨p, m, hp, h.get?_eq_none hnone, hrest⟩
    · intro c hc
      obtain ⟨hnone, hrest⟩ := hplaced.down c hc
      exact ⟨h.get?_eq_none hnone, hrest⟩
    · obtain ⟨top, htop, hhangs⟩ := hplaced.hangs
      exact ⟨top, List.mem_cons_of_mem id htop, hhangs⟩

theorem cons {id : NodeId} {d : Definition} (h : Grown typed a a₁ parent [id] [d])
    (h' : Grown typed a₁ a₂ parent tops ds) : Grown typed a a₂ parent (id :: tops) (d :: ds) where
  sound := h'.sound
  size := Nat.le_trans h.size h'.size
  kept hx := h'.kept (h.kept hx)
  tops_new := by
    obtain ⟨hnone, n, hn, hrest⟩ := List.forall₂_cons.mp h.tops_new |>.1
    refine .cons ⟨hnone, n, h'.kept hn, hrest⟩ ?_
    exact h'.tops_new.imp fun x _ hx => ⟨h.get?_eq_none hx.1, hx.2⟩
  distinct := by
    refine List.nodup_cons.mpr ⟨?_, h'.distinct⟩
    intro hid
    obtain ⟨_, n, hn, _⟩ := List.forall₂_cons.mp h.tops_new |>.1
    obtain ⟨_, _, hnone, _⟩ := h'.exists_top hid
    exact nomatch hnone.symm.trans hn
  placed := h.placed_cons h'
  stems := by
    intro x n hnone hx
    refine List.mem_append.mpr ?_
    rcases h'.get?_or_new hx with hx₁ | hx₁
    · exact .inl (by simpa [Definition.partsAmong] using h.stems hnone hx₁)
    · exact .inr (h'.stems hx₁ hx)
  status hnone hx := (h'.get?_or_new hx).elim (h.status hnone) fun hx₁ => h'.status hx₁ hx
  content hnone hx := (h'.get?_or_new hx).elim (h.content hnone) fun hx₁ => h'.content hx₁ hx

end Grown

/-! ## A node that lists what has grown below it -/

section Listed

variable {typed : Prop} {a₀ a a₁ a' : Arena Node} {parent : Option NodeId} {id : NodeId} {r : Node}
  {tops tops' children : List NodeId} {ds : List Definition}

/-- A node takes new children, and all else stays as it is. -/
theorem exists_of_listed (hr : a.get? id = some r)
    (hget : ∀ x, a'.get? x = if x = id then some { r with children } else a.get? x) {x : NodeId}
    {n : Node} (hx : a.get? x = some n) :
    ∃ n', a'.get? x = some n' ∧ n'.parent = n.parent ∧ n'.definition = n.definition := by
  by_cases hne : x = id
  · obtain rfl : r = n := Option.some.inj (hr.symm.trans (hne ▸ hx))
    exact ⟨{ r with children }, by rw [hget, if_pos hne], rfl, rfl⟩
  · exact ⟨n, by rw [hget, if_neg hne, hx], rfl, rfl⟩

theorem hangs_of_listed (hr : a.get? id = some r)
    (hget : ∀ x, a'.get? x = if x = id then some { r with children } else a.get? x)
    {top x : NodeId} (h : a.Hangs top x) : a'.Hangs top x := by
  refine h.mono fun hn => ?_
  obtain ⟨n', hn', hparent, _⟩ := exists_of_listed hr hget hn
  exact ⟨n', hn', hparent⟩

variable (h : Grown typed a a₁ (some id) tops ds) (hr : a.get? id = some r)
  (hget : ∀ x, a'.get? x = if x = id then some { r with children } else a₁.get? x)

include h hr hget

theorem Grown.exists_listed {c : NodeId} (hc : c ∈ tops) :
    a.get? c = none ∧ ∃ k, a'.get? c = some k ∧ k.parent = some id := by
  obtain ⟨_, _, hnone, k, hk, _, hparent⟩ := h.exists_top hc
  obtain ⟨k', hk', hparent', _⟩ := exists_of_listed (h.kept hr) hget hk
  exact ⟨hnone, k', hk', hparent'.trans hparent⟩

/-- What has grown below a node has its place once the node lists it. The nodes of `a₀` are the ones
that count as old. -/
theorem Grown.placed_listed (hds : typed → ∀ d ∈ ds, r.definition.type.holds d.type)
    (hlists : tops ⊆ children) (hid : a₀.get? id = none)
    (hold : ∀ {x}, a.get? x = none → a₀.get? x = none) (hhangs : ∃ top ∈ tops', a'.Hangs top id)
    {x : NodeId} {n : Node} (hnone : a.get? x = none) (hx : a₁.get? x = some n) :
    Placed typed a₀ a' tops' x n := by
  have hplaced := h.placed hnone hx
  refine ⟨.inr ?_, ?_, hplaced.distinct, hplaced.filled, ?_⟩
  · rcases hplaced.up with htop | ⟨p, m, hp, hpnone, hm, hrest⟩
    · obtain ⟨d, hd, _, k, hk, hdef, hparent⟩ := h.exists_top htop
      obtain rfl : k = n := Option.some.inj (hk.symm.trans hx)
      refine ⟨id, { r with children }, hparent, hid, (hget id).trans (if_pos rfl), hlists htop, ?_⟩
      rw [hdef]
      exact fun ht => hds ht d hd
    · have hne : p ≠ id := by
        rintro rfl
        exact nomatch hpnone.symm.trans hr
      exact ⟨p, m, hp, hold hpnone, (hget p).trans ((if_neg hne).trans hm), hrest⟩
  · intro c hc
    obtain ⟨hcnone, k, hk, hparent⟩ := hplaced.down c hc
    obtain ⟨k', hk', hparent', _⟩ := exists_of_listed (h.kept hr) hget hk
    exact ⟨hold hcnone, k', hk', hparent'.trans hparent⟩
  · -- the way down to `x` leads over `id` and one of the nodes that it lists
    obtain ⟨top, htop, hbelow⟩ := hplaced.hangs
    obtain ⟨_, k, hk, hparent⟩ := h.exists_listed hr hget htop
    obtain ⟨top', htop', habove⟩ := hhangs
    have hlisted : a'.Hangs id top := .step hk hparent .here
    have hrest : a'.Hangs top x := hangs_of_listed (h.kept hr) hget hbelow
    exact ⟨top', htop', habove.trans (hlisted.trans hrest)⟩

end Listed

/-! ## Nodes for definitions -/

variable {typed : Prop} {a : Arena Node} {parent : Option NodeId} {ds : List Definition}
  {below : NodeId → Arena Node → List NodeId × Arena Node}

/-- A graft adds the node stored first, which lists what is stored below it. -/
theorem get?_graft (h : a.Sound) (node : Node)
    (hkept : ∀ id (a : Arena Node), a.Sound → ∀ {x n}, a.get? x = some n →
      (below id a).2.get? x = some n) (x : NodeId) :
    (a.graft node below).2.get? x = if x = (a.graft node below).1 then
        some { node with children := (below (a.alloc node).1 (a.alloc node).2).1 }
      else (below (a.alloc node).1 (a.alloc node).2).2.get? x := by
  simp only [Arena.graft]
  rw [get?_modify, hkept _ _ (h.alloc node) (h.get?_alloc_self node)]
  rfl

/-- What a graft adds is the node stored first or was stored below it. -/
theorem new_graft (h : a.Sound) (node : Node)
    (hkept : ∀ id (a : Arena Node), a.Sound → ∀ {x n}, a.get? x = some n →
      (below id a).2.get? x = some n) {x : NodeId} {n : Node} (hnone : a.get? x = none)
    (hx : (a.graft node below).2.get? x = some n) :
    (x = (a.graft node below).1 ∧
      n = { node with children := (below (a.alloc node).1 (a.alloc node).2).1 }) ∨
    ((a.alloc node).2.get? x = none ∧
      (below (a.alloc node).1 (a.alloc node).2).2.get? x = some n) := by
  rw [get?_graft h node hkept] at hx
  split at hx
  next heq => exact .inl ⟨heq, (Option.some.inj hx).symm⟩
  next hne =>
    refine .inr ⟨?_, hx⟩
    rw [h.get?_alloc]
    exact (if_neg hne).trans hnone

/-- A node with nodes below it. -/
theorem Grown.graft {d : Definition} (h : a.Sound)
    (hds : typed → ∀ e ∈ ds, d.type.holds e.type) (hparts : Definition.partsAmong ds ⊆ d.parts)
    (hbelow : ∀ id (a : Arena Node), a.Sound →
      Grown typed a (below id a).2 (some id) (below id a).1 ds) :
    Grown typed a (a.graft (.fresh d parent) below).2 parent [(a.graft (.fresh d parent) below).1]
      [d] := by
  have hleaf : Grown typed a (a.alloc (.fresh d parent)).2 parent _ [d] := .leaf h d
  have hgrown := hbelow (a.alloc (.fresh d parent)).1 _ hleaf.sound
  have hself := h.get?_alloc_self (.fresh d parent)
  have hget := get?_graft h (.fresh d parent) fun id a h => (hbelow id a h).kept
  have hnew {x : NodeId} {n : Node} (hnone : a.get? x = none)
      (hx : (a.graft (.fresh d parent) below).2.get? x = some n) :=
    new_graft h (.fresh d parent) (fun id a h => (hbelow id a h).kept) hnone hx
  have hid : a.get? (a.graft (.fresh d parent) below).1 = none := h.get?_alloc_fresh _
  constructor
  · exact hgrown.sound.modify _ _
  · refine Nat.le_trans (Nat.le_trans hleaf.size hgrown.size) (Nat.le_of_eq ?_)
    exact (size_modify _ _ _).symm
  · intro x n hx
    rw [hget, if_neg, hgrown.kept (hleaf.kept hx)]
    rintro rfl
    exact nomatch hid.symm.trans hx
  · exact .cons ⟨hid, _, (hget _).trans (if_pos rfl), rfl, rfl⟩ .nil
  · exact List.nodup_singleton _
  · intro x n hnone hx
    rcases hnew hnone hx with ⟨rfl, rfl⟩ | ⟨hx₁, hx₂⟩
    · refine ⟨.inl (List.mem_singleton_self _), ?_, hgrown.distinct, Content.suits_initial d, _,
        List.mem_singleton_self _, .here⟩
      intro c hc
      obtain ⟨hcnone, hlisted⟩ := hgrown.exists_listed hself hget hc
      exact ⟨hleaf.get?_eq_none hcnone, hlisted⟩
    · exact hgrown.placed_listed hself hget hds (List.Subset.refl _) hid hleaf.get?_eq_none
        ⟨_, List.mem_singleton_self _, .here⟩ hx₁ hx₂
  · intro x n hnone hx
    refine List.mem_append_left _ ?_
    rcases hnew hnone hx with ⟨_, rfl⟩ | ⟨hx₁, hx₂⟩
    · exact d.self_mem_parts
    · exact hparts (hgrown.stems hx₁ hx₂)
  · intro x n hnone hx
    rcases hnew hnone hx with ⟨_, rfl⟩ | ⟨hx₁, hx₂⟩
    · rfl
    · exact hgrown.status hx₁ hx₂
  · intro x n hnone hx
    rcases hnew hnone hx with ⟨_, rfl⟩ | ⟨hx₁, hx₂⟩
    · rfl
    · exact hgrown.content hx₁ hx₂

mutual

theorem grown_plant (parent : Option NodeId) {a : Arena Node} (h : a.Sound) :
    (d : Definition) → (typed → d.Shaped) →
      Grown typed a (plant parent a d).2 parent [(plant parent a d).1] [d]
  | .root header cs, hd => by
    simp only [plant]
    refine .graft h (fun ht => (hd ht).holds) ?_ fun id a h => grown_plantAll id h cs hd
    exact fun _ he => List.mem_cons_of_mem _ he
  | .group header cs, hd => by
    simp only [plant]
    refine .graft h (fun ht => (hd ht).holds) ?_ fun id a h => grown_plantAll id h cs hd
    exact fun _ he => List.mem_cons_of_mem _ he
  | .range header template instances, hd => by
    have hinstances : typed → Definition.AllShaped .range instances := fun ht => (hd ht).2.2
    simp only [plant]
    refine .graft h (fun ht => (hinstances ht).holds) ?_
      fun id a h => grown_plantAll id h instances hinstances
    exact fun _ he => List.mem_cons_of_mem _ (List.mem_append_right _ he)
  | .inst header cs, hd => by
    simp only [plant]
    refine .graft h (fun ht => (hd ht).holds) ?_ fun id a h => grown_plantAll id h cs hd
    exact fun _ he => List.mem_cons_of_mem _ he
  | .value _ _, _ => by
    simp only [plant]
    exact .leaf h _
  | .select _ _ _ _ _, _ => by
    simp only [plant]
    exact .leaf h _

theorem grown_plantAll (parent : NodeId) {a : Arena Node} (h : a.Sound) {type : NodeType} :
    (ds : List Definition) → (typed → Definition.AllShaped type ds) →
      Grown typed a (plantAll parent a ds).2 (some parent) (plantAll parent a ds).1 ds
  | [], _ => by
    simp only [plantAll]
    exact .nil h
  | d :: ds, hds => by
    have hfirst := grown_plant (some parent) h d fun ht => (hds ht).2.1
    have hrest := grown_plantAll parent hfirst.sound ds fun ht => (hds ht).2.2
    simp only [plantAll]
    exact hfirst.cons hrest

end

/-- The types of nodes set aside, nodes grow for any definitions. -/
theorem grown_below (parent : NodeId) {a : Arena Node} (h : a.Sound) (ds : List Definition) :
    Grown False a (plantAll parent a ds).2 (some parent) (plantAll parent a ds).1 ds := by
  have hshaped : False → Definition.AllShaped .range ds := False.elim
  exact grown_plantAll parent h ds hshaped

end Arena

namespace Tree

variable {typed : Prop} {t : Tree}

/-- Contents suit the types of their nodes. -/
def Filled (t : Tree) : Prop :=
  ∀ {id n}, t.get? id = some n → n.content.suits n.definition.type

/-- The links of the tree agree, and so do the contents and the types of its nodes. -/
structure Coherent (t : Tree) : Prop where
  connected : t.Connected
  filled : t.Filled

/-- The tree is coherent and the arena is in order. Where `typed` holds, the types of the nodes are
in order as well. -/
structure Sound (typed : Prop) (t : Tree) : Prop extends Coherent t where
  distinct : ∀ p, (t.children p).Nodup
  arena : t.arena.Sound
  types : typed → t.Typed

theorem Sound.wellFormed (h : t.Sound typed) (ht : typed) : t.WellFormed :=
  h.connected.wellFormed h.distinct (h.types ht)

theorem atDepth_of_hangs {top id : NodeId} (h : t.arena.Hangs top id) :
    ∃ depth, t.links.AtDepth top depth id := by
  induction h with
  | here => exact ⟨0, rfl⟩
  | step hn hp _ ih =>
    obtain ⟨depth, hdepth⟩ := ih
    exact ⟨depth + 1, _, (parent_of_get? hn).trans hp, hdepth⟩

theorem hangs_of_atDepth {top id : NodeId} {depth : Nat} (h : t.links.AtDepth top depth id) :
    t.arena.Hangs top id := by
  induction depth generalizing id with
  | zero =>
    obtain rfl := h
    exact .here
  | succ depth ih =>
    obtain ⟨p, hp, h⟩ := h
    obtain ⟨n, hn, hparent⟩ := get?_of_parent hp
    exact .step hn hparent (ih h)

theorem Sound.root_type (h : t.Sound typed) (ht : typed) {n : Node} (hn : t.get? t.root = some n) :
    n.definition.type = .root := by
  obtain ⟨m, hm, htype⟩ := (h.types ht).root_type
  obtain rfl : m = n := Option.some.inj (hm.symm.trans hn)
  exact htype

theorem Sound.placed (h : t.Sound typed) {x : NodeId} {n : Node} (hn : t.get? x = some n) :
    Arena.Placed typed {} t.arena [t.root] x n where
  up := by
    obtain ⟨_ | depth, hdepth⟩ := h.connected.rooted hn
    · exact .inl (List.mem_singleton.mpr hdepth)
    · obtain ⟨p, hp, _⟩ := hdepth
      have hmem := h.connected.linked.mpr hp
      obtain ⟨m, hm, hx⟩ := get?_of_mem_children hmem
      have hparent : n.parent = some p := (parent_of_get? hn).symm.trans hp
      exact .inr ⟨p, m, hparent, rfl, hm, hx, fun ht => (h.types ht).holds hm hn hparent⟩
  down := by
    intro c hc
    have hparent := h.connected.linked.mp (children_of_get? hn ▸ hc)
    obtain ⟨k, hk, hp⟩ := get?_of_parent hparent
    exact ⟨rfl, k, hk, hp⟩
  distinct := by
    rw [← children_of_get? hn]
    exact h.distinct x
  filled := h.filled hn
  hangs := by
    obtain ⟨depth, hdepth⟩ := h.connected.rooted hn
    exact ⟨t.root, List.mem_singleton_self _, hangs_of_atDepth hdepth⟩

/-- Where every node has its place and the root stands below no other node, the node above a node
lists it. -/
theorem lists_of_placed (hroot : ∃ n, t.get? t.root = some n ∧ n.parent = none)
    (h : ∀ {x n}, t.get? x = some n → Arena.Placed typed {} t.arena [t.root] x n) {x p : NodeId}
    {n : Node} (hn : t.get? x = some n) (hp : n.parent = some p) :
    ∃ m, t.get? p = some m ∧ x ∈ m.children ∧
      (typed → m.definition.type.holds n.definition.type) := by
  rcases (h hn).up with htop | ⟨q, m, hq, _, hm, hrest⟩
  · obtain rfl := List.mem_singleton.mp htop
    obtain ⟨r, hr, hnone⟩ := hroot
    obtain rfl : r = n := Option.some.inj (hr.symm.trans hn)
    exact nomatch hnone.symm.trans hp
  · obtain rfl : q = p := Option.some.inj (hq.symm.trans hp)
    exact ⟨m, hm, hrest⟩

/-- A tree in which every node has its place is connected. -/
theorem connected_of_placed (hroot : ∃ n, t.get? t.root = some n ∧ n.parent = none)
    (h : ∀ {x n}, t.get? x = some n → Arena.Placed typed {} t.arena [t.root] x n) :
    t.Connected where
  root_live := hroot
  linked := by
    intro p c
    constructor
    · intro hc
      obtain ⟨m, hm, hc⟩ := get?_of_mem_children hc
      obtain ⟨_, k, hk, hparent⟩ := (h hm).down c hc
      exact (parent_of_get? hk).trans hparent
    · intro hp
      obtain ⟨n, hn, hparent⟩ := get?_of_parent hp
      obtain ⟨m, hm, hmem, _⟩ := lists_of_placed hroot h hn hparent
      rw [children_of_get? hm]
      exact hmem
  rooted := by
    intro id n hn
    obtain ⟨top, htop, hhangs⟩ := (h hn).hangs
    obtain rfl := List.mem_singleton.mp htop
    exact atDepth_of_hangs hhangs

/-- A tree in which every node has its place is sound. -/
theorem sound_of_placed (ha : t.arena.Sound)
    (hroot : ∃ n, t.get? t.root = some n ∧ (typed → n.definition.type = .root) ∧ n.parent = none)
    (h : ∀ {x n}, t.get? x = some n → Arena.Placed typed {} t.arena [t.root] x n) :
    t.Sound typed := by
  obtain ⟨r, hr, htype, hnone⟩ := hroot
  have hroot : ∃ n, t.get? t.root = some n ∧ n.parent = none := ⟨r, hr, hnone⟩
  refine ⟨⟨connected_of_placed hroot h, fun hn => (h hn).filled⟩, ?_, ha, ?_⟩
  · intro p
    cases hm : t.get? p with
    | none => simp [children, hm]
    | some m =>
      rw [children_of_get? hm]
      exact (h hm).distinct
  · intro ht
    refine ⟨⟨r, hr, htype ht⟩, ?_⟩
    intro p c m n hm hn hparent
    obtain ⟨m', hm', _, hholds⟩ := lists_of_placed hroot h hn hparent
    obtain rfl : m = m' := Option.some.inj (hm.symm.trans hm')
    exact hholds ht

/-- The tree that a form starts with is sound. -/
theorem sound_ofDefinition {d : Definition} (hd : typed → d.Shaped ∧ d.type = .root) :
    (ofDefinition d).Sound typed := by
  have hgrown := Arena.grown_plant none Arena.sound_empty d fun ht => (hd ht).1
  obtain ⟨_, n, hn, rfl, hparent⟩ := (List.forall₂_cons.mp hgrown.tops_new).1
  exact sound_of_placed hgrown.sound ⟨n, hn, fun ht => (hd ht).2, hparent⟩
    fun hx => hgrown.placed rfl hx

theorem wellFormed_ofDefinition {d : Definition} (hd : d.Shaped) (hroot : d.type = .root) :
    (ofDefinition d).WellFormed := by
  have hsound : (ofDefinition d).Sound True := sound_ofDefinition fun _ => ⟨hd, hroot⟩
  exact hsound.wellFormed trivial

/-! ## Instances -/

theorem allShaped_replicate {type : NodeType} {d : Definition} (hholds : type.holds d.type)
    (hd : d.Shaped) (count : Nat) : Definition.AllShaped type (List.replicate count d) := by
  induction count with
  | zero => trivial
  | succ count ih => exact ⟨hholds, hd, ih⟩

theorem grown_instances (h : t.Sound typed) {template : Definition}
    (htemplate : typed → template.type = .inst ∧ template.Shaped) (range : NodeId) (count : Nat) :
    Arena.Grown typed t.arena (Arena.plantAll range t.arena (List.replicate count template)).2
      (some range) (Arena.plantAll range t.arena (List.replicate count template)).1
      (List.replicate count template) := by
  have hshaped : typed → Definition.AllShaped .range (List.replicate count template) := by
    intro ht
    obtain ⟨htype, hshape⟩ := htemplate ht
    exact allShaped_replicate (by rw [htype]; rfl) hshape count
  exact Arena.grown_plantAll range h.arena _ hshaped

/-- What is in a list is there before or behind any place of it. -/
theorem mem_splice {α : Type} {x : α} {xs ys : List α} (place : Nat) :
    x ∈ xs.take place ++ ys ++ xs.drop place ↔ x ∈ xs ∨ x ∈ ys := by
  have hsplit : x ∈ xs ↔ x ∈ xs.take place ∨ x ∈ xs.drop place := by
    rw [← List.mem_append, List.take_append_drop]
  rw [hsplit]
  simp only [List.mem_append]
  tauto

theorem nodup_splice {α : Type} {xs ys : List α} (hxs : xs.Nodup) (hys : ys.Nodup)
    (hdisjoint : ∀ y ∈ ys, y ∉ xs) (place : Nat) :
    (xs.take place ++ ys ++ xs.drop place).Nodup := by
  have hperm : (xs.take place ++ ys ++ xs.drop place).Perm (ys ++ xs) := by
    have hmove : (xs.take place ++ ys ++ xs.drop place).Perm (ys ++ xs.take place ++ xs.drop place) :=
      List.perm_append_comm.append_right _
    rw [List.append_assoc, List.append_assoc, List.take_append_drop] at hmove
    rwa [List.append_assoc]
  rw [hperm.nodup_iff]
  refine List.nodup_append.mpr ⟨hys, hxs, ?_⟩
  rintro y hy x hx rfl
  exact hdisjoint y hy hx

/-- What is left of a list without duplicates once a stretch of it is taken out. -/
theorem mem_cut {α : Type} {xs : List α} (h : xs.Nodup) (place count : Nat) {x : α} :
    x ∈ xs.take place ++ xs.drop (place + count) ↔
      x ∈ xs ∧ x ∉ (xs.drop place).take count := by
  have hsplit : xs.take place ++ ((xs.drop place).take count ++ xs.drop (place + count)) = xs := by
    rw [← List.drop_drop, List.take_append_drop, List.take_append_drop]
  generalize xs.take place = front at hsplit ⊢
  generalize (xs.drop place).take count = stretch at hsplit ⊢
  generalize xs.drop (place + count) = back at hsplit ⊢
  subst hsplit
  obtain ⟨_, hrest, hfront⟩ := List.nodup_append.mp h
  obtain ⟨_, _, hback⟩ := List.nodup_append.mp hrest
  simp only [List.mem_append]
  constructor
  · rintro (hx | hx)
    · exact ⟨.inl hx, fun hs => hfront x hx x (List.mem_append_left _ hs) rfl⟩
    · exact ⟨.inr (.inr hx), fun hs => hback x hs x hx rfl⟩
  · rintro ⟨hx | hx | hx, hnot⟩
    · exact .inl hx
    · exact absurd hx hnot
    · exact .inr hx

theorem nodup_cut {α : Type} {xs : List α} (h : xs.Nodup) (place count : Nat) :
    (xs.take place ++ xs.drop (place + count)).Nodup := by
  have hsub : (xs.take place ++ xs.drop (place + count)).Sublist
      (xs.take place ++ xs.drop place) := by
    rw [← List.drop_drop]
    exact (List.drop_sublist count _).append_left _
  rw [List.take_append_drop] at hsub
  exact h.sublist hsub

theorem Sound.root_kept (h : t.Sound typed) {t' : Tree} (hroot : t'.root = t.root)
    (hkept : ∀ {n}, t.get? t.root = some n →
      ∃ n', t'.get? t.root = some n' ∧ n'.parent = n.parent ∧ n'.definition = n.definition) :
    ∃ n, t'.get? t'.root = some n ∧ (typed → n.definition.type = .root) ∧ n.parent = none := by
  obtain ⟨n, hn, hp⟩ := h.connected.root_live
  obtain ⟨n', hn', hp', hd⟩ := hkept hn
  refine ⟨n', by rw [hroot, hn'], fun ht => ?_, by rw [hp', hp]⟩
  rw [hd]
  exact h.root_type ht hn

/-- A node of a sound tree keeps its place when one node takes new children: that node with its new
list, which still has the old ones, and any other as it was. -/
theorem Sound.placed_listed (h : t.Sound typed) {a a' : Arena Node} {range : NodeId} {r : Node}
    {children : List NodeId} (hkept : ∀ {x n}, t.get? x = some n → a.get? x = some n)
    (hr : t.get? range = some r)
    (hget : ∀ x, a'.get? x = if x = range then some { r with children } else a.get? x)
    (hlists : r.children ⊆ children) {x : NodeId} {n : Node} (hn : t.get? x = some n)
    {cs : List NodeId} (hcs : ∀ c ∈ cs, ∃ k, a'.get? c = some k ∧ k.parent = some x)
    (hnodup : cs.Nodup) : Arena.Placed typed {} a' [t.root] x { n with children := cs } := by
  have hplaced := h.placed hn
  refine ⟨?_, fun c hc => ⟨rfl, hcs c hc⟩, hnodup, hplaced.filled, ?_⟩
  · rcases hplaced.up with htop | ⟨p, m, hp, _, hm, hx, hholds⟩
    · exact .inl htop
    · refine .inr ?_
      by_cases hpr : p = range
      · obtain rfl : r = m := Option.some.inj (hr.symm.trans (hpr ▸ hm))
        exact ⟨p, { r with children }, hp, rfl, by rw [hget, if_pos hpr], hlists hx, hholds⟩
      · exact ⟨p, m, hp, rfl, by rw [hget, if_neg hpr, hkept hm], hx, hholds⟩
  · obtain ⟨top, htop, hx⟩ := hplaced.hangs
    exact ⟨top, htop, Arena.hangs_of_listed (hkept hr) hget (hx.mono fun hn => ⟨_, hkept hn, rfl⟩)⟩

/-- Nodes made below a node find their place once that node lists them. -/
theorem Sound.attach (h : t.Sound typed) {t' : Tree} {range : NodeId} {r : Node} {a : Arena Node}
    {created children : List NodeId} {ds : List Definition} (hr : t.get? range = some r)
    (hgrown : Arena.Grown typed t.arena a (some range) created ds)
    (hds : typed → ∀ d ∈ ds, r.definition.type.holds d.type) (hroot : t'.root = t.root)
    (ha : t'.arena.Sound)
    (hget : ∀ x, t'.get? x = if x = range then some { r with children } else a.get? x)
    (hmem : ∀ x, x ∈ children ↔ x ∈ r.children ∨ x ∈ created) (hnodup : children.Nodup) :
    t'.Sound typed := by
  have hlists : r.children ⊆ children := fun x hx => (hmem x).mpr (.inl hx)
  have hcreated : created ⊆ children := fun x hx => (hmem x).mpr (.inr hx)
  have hframe {x : NodeId} {n : Node} (hx : t.get? x = some n) :
      ∃ n', t'.get? x = some n' ∧ n'.parent = n.parent ∧ n'.definition = n.definition :=
    Arena.exists_of_listed (hgrown.kept hr) hget (hgrown.kept hx)
  have hdown {x : NodeId} {n : Node} (hn : t.get? x = some n) (c : NodeId) (hc : c ∈ n.children) :
      ∃ k, t'.get? c = some k ∧ k.parent = some x := by
    obtain ⟨_, k, hk, hp⟩ := (h.placed hn).down c hc
    obtain ⟨k', hk', hp', _⟩ := hframe hk
    exact ⟨k', hk', hp'.trans hp⟩
  have hold {x : NodeId} {n : Node} := h.placed_listed (x := x) (n := n) hgrown.kept hr hget hlists
  refine sound_of_placed ha (h.root_kept hroot hframe) fun {x n} hx => ?_
  rw [hroot]
  -- a node of `t'` is the range, with its new list, or was there before, or has grown
  rw [hget] at hx
  split at hx
  next heq =>
    obtain rfl := Option.some.inj hx
    subst heq
    refine hold hr (fun c hc => ?_) hnodup
    rcases (hmem c).mp hc with hc | hc
    · exact hdown hr c hc
    · exact (hgrown.exists_listed hr hget hc).2
  next =>
    rcases hgrown.get?_or_new hx with hn | hnone
    · exact hold hn (hdown hn) (h.placed hn).distinct
    · obtain ⟨top, htop, hrange⟩ := (h.placed hr).hangs
      have habove : a.Hangs top range := hrange.mono fun hn => ⟨_, hgrown.kept hn, rfl⟩
      exact hgrown.placed_listed hr hget hds hcreated rfl (fun _ => rfl)
        ⟨top, htop, Arena.hangs_of_listed (hgrown.kept hr) hget habove⟩ hnone hx

theorem get?_insertInstances (t : Tree) (range : NodeId) (place count : Nat)
    (template : Definition) (x : NodeId) :
    (t.insertInstances range place count template).get? x
      = if x = range then
          ((Arena.plantAll range t.arena (List.replicate count template)).2.get? range).map fun n =>
            { n with children := n.children.take place ++
                (Arena.plantAll range t.arena (List.replicate count template)).1 ++
                n.children.drop place }
        else (Arena.plantAll range t.arena (List.replicate count template)).2.get? x :=
  Arena.get?_modify _ range x _

/-- New instances of a range are nodes of a sound tree. -/
theorem Sound.insertInstances (h : t.Sound typed) {range : NodeId} {template : Definition}
    (hrange : t.isRange range) (htemplate : typed → template.type = .inst ∧ template.Shaped)
    (place count : Nat) : (t.insertInstances range place count template).Sound typed := by
  obtain ⟨r, hr, hrtype⟩ := isRange_iff.mp hrange
  have hgrown := grown_instances h htemplate range count
  have hfresh : ∀ x ∈ (Arena.plantAll range t.arena (List.replicate count template)).1,
      x ∉ r.children := by
    intro x hx hmem
    obtain ⟨_, _, hnone, _⟩ := hgrown.exists_top hx
    obtain ⟨_, k, hk, _⟩ := (h.placed hr).down x hmem
    exact nomatch hnone.symm.trans hk
  refine h.attach hr hgrown ?_ rfl (hgrown.sound.modify _ _) ?_ (fun x => mem_splice place)
    (nodup_splice (h.placed hr).distinct hgrown.distinct hfresh place)
  · intro ht d hd
    rw [List.eq_of_mem_replicate hd, hrtype, (htemplate ht).1]
    rfl
  · intro x
    rw [get?_insertInstances, hgrown.kept hr]
    rfl

/-- Once the node above the nodes removed no longer lists them, each node left lists the children
left to it. -/
theorem Sound.exists_detached (h : t.Sound typed) {t' : Tree} {range : NodeId}
    {removed children : List NodeId}
    (hget : ∀ x, t'.get? x = if x ∈ removed then none else
      (t.get? x).map fun n => if x = range then { n with children } else n)
    (habove : ∀ {x p}, t.parent x = some p → p ≠ range → p ∉ removed → x ∉ removed)
    (hmem : ∀ x, x ∈ children ↔ x ∈ t.children range ∧ x ∉ removed) (hnodup : children.Nodup)
    {x : NodeId} {n : Node} (hn : t.get? x = some n) (hx : x ∉ removed) :
    ∃ cs, t'.get? x = some { n with children := cs } ∧
      (∀ c, c ∈ cs ↔ c ∈ n.children ∧ c ∉ removed) ∧ cs.Nodup := by
  have hfound : t'.get? x = some (if x = range then { n with children } else n) := by
    rw [hget, if_neg hx, hn]
    rfl
  by_cases hxr : x = range
  · subst hxr
    rw [if_pos rfl] at hfound
    exact ⟨children, hfound, children_of_get? hn ▸ hmem, hnodup⟩
  · rw [if_neg hxr] at hfound
    refine ⟨n.children, hfound, fun c => ⟨fun hc => ⟨hc, ?_⟩, And.left⟩, (h.placed hn).distinct⟩
    obtain ⟨_, k, hk, hp⟩ := (h.placed hn).down c hc
    exact habove ((parent_of_get? hk).trans hp) hxr hx

/-- Nodes may go together with all that stands below them, once the node above them no longer lists
them. -/
theorem Sound.detach (h : t.Sound typed) {t' : Tree} {range : NodeId} {removed children : List NodeId}
    (hroot : t'.root = t.root) (ha : t'.arena.Sound)
    (hget : ∀ x, t'.get? x = if x ∈ removed then none else
      (t.get? x).map fun n => if x = range then { n with children } else n)
    (hrootkept : t.root ∉ removed)
    (hbelow : ∀ {x p}, t.parent x = some p → p ∈ removed → x ∈ removed)
    (habove : ∀ {x p}, t.parent x = some p → p ≠ range → p ∉ removed → x ∉ removed)
    (hmem : ∀ x, x ∈ children ↔ x ∈ t.children range ∧ x ∉ removed)
    (hnodup : children.Nodup) : t'.Sound typed := by
  have hkept {x : NodeId} {n : Node} (hn : t.get? x = some n) (hx : x ∉ removed) :
      ∃ cs, t'.get? x = some { n with children := cs } ∧
        (∀ c, c ∈ cs ↔ c ∈ n.children ∧ c ∉ removed) ∧ cs.Nodup :=
    h.exists_detached hget habove hmem hnodup hn hx
  -- what is kept hangs from the root by kept nodes only, since all below a removed one is removed
  have hhangs {x : NodeId} (hx : t.arena.Hangs t.root x) (hnot : x ∉ removed) :
      t'.arena.Hangs t.root x := by
    induction hx with
    | here => exact .here
    | step hn hp _ ih =>
      obtain ⟨_, hn', _⟩ := hkept hn hnot
      exact .step hn' hp (ih fun hm => hnot (hbelow ((parent_of_get? hn).trans hp) hm))
  refine sound_of_placed ha (h.root_kept hroot fun hn => ?_) fun {x n'} hx => ?_
  · obtain ⟨_, hn', _⟩ := hkept hn hrootkept
    exact ⟨_, hn', rfl, rfl⟩
  · obtain ⟨hxnot, n, hn⟩ : x ∉ removed ∧ ∃ n, t.get? x = some n := by
      rw [hget] at hx
      split at hx
      next => exact nomatch hx
      next hxnot =>
        obtain ⟨n, hn, _⟩ := Option.map_eq_some_iff.mp hx
        exact ⟨hxnot, n, hn⟩
    obtain ⟨cs, hcs, hchildren, hdistinct⟩ := hkept hn hxnot
    obtain rfl := Option.some.inj (hcs.symm.trans hx)
    have hplaced := h.placed hn
    rw [hroot]
    refine ⟨?_, ?_, hdistinct, hplaced.filled, ?_⟩
    · rcases hplaced.up with htop | ⟨p, m, hp, _, hm, hlisted, hholds⟩
      · exact .inl htop
      · have hpnot : p ∉ removed := fun hpm => hxnot (hbelow ((parent_of_get? hn).trans hp) hpm)
        obtain ⟨_, hm', hleft, _⟩ := hkept hm hpnot
        exact .inr ⟨p, _, hp, rfl, hm', (hleft x).mpr ⟨hlisted, hxnot⟩, hholds⟩
    · intro c hc
      obtain ⟨hc, hcnot⟩ := (hchildren c).mp hc
      obtain ⟨_, k, hk, hp⟩ := hplaced.down c hc
      obtain ⟨_, hk', _⟩ := hkept hk hcnot
      exact ⟨rfl, _, hk', hp⟩
    · obtain ⟨top, htop, hx⟩ := hplaced.hangs
      obtain rfl := List.mem_singleton.mp htop
      exact ⟨t.root, List.mem_singleton_self _, hhangs hx hxnot⟩

/-- What is removed along with some instances is what stands below them. -/
theorem Connected.mem_removed_iff (h : t.Connected) (range : NodeId) (place count : Nat) (x : NodeId) :
    x ∈ (t.removeInstances range place count).1 ↔
      ∃ i ∈ ((t.children range).drop place).take count, ∃ k, t.links.AtDepth i k x := by
  simp only [removeInstances, List.mem_flatMap]
  apply exists_congr
  intro i
  apply and_congr_right
  intro hi
  have hparent := h.linked.mp (List.mem_of_mem_drop (List.mem_of_mem_take hi))
  obtain ⟨n, hn, _⟩ := get?_of_parent hparent
  exact h.mem_subtree_iff ⟨n, hn⟩

theorem get?_removeInstances (range : NodeId) (place count : Nat) (x : NodeId) :
    (t.removeInstances range place count).2.get? x
      = if x ∈ (t.removeInstances range place count).1 then none else
        (t.get? x).map fun n => if x = range then
          { n with children := (t.children range).take place ++
              (t.children range).drop (place + count) } else n := by
  refine (Arena.get?_foldl_release _ _ x).trans ?_
  congr 1
  refine (Arena.get?_modify _ range x _).trans ?_
  by_cases hx : x = range
  · subst hx
    rw [if_pos rfl]
    change (t.get? x).map _ = _
    cases hn : t.get? x with
    | none => rfl
    | some n => simp [children_of_get? hn]
  · rw [if_neg hx]
    change t.get? x = _
    cases t.get? x <;> simp [hx]

/-- A child of a range goes just when it is one of the instances to remove. -/
theorem Connected.mem_removed_child_iff (h : t.Connected) {range : NodeId} {place count : Nat}
    {x : NodeId} (hx : x ∈ t.children range) :
    x ∈ (t.removeInstances range place count).1 ↔
      x ∈ ((t.children range).drop place).take count := by
  rw [h.mem_removed_iff]
  constructor
  · rintro ⟨i, hi, _ | k, hk⟩
    · obtain rfl : x = i := hk
      exact hi
    · -- the range would stand below one of its own instances
      obtain ⟨p, hp, hk⟩ := hk
      obtain rfl : range = p := Option.some.inj ((h.linked.mp hx).symm.trans hp)
      have hparent := h.linked.mp (List.mem_of_mem_drop (List.mem_of_mem_take hi))
      have hstep : t.links.AtDepth range 1 i := ⟨range, hparent, rfl⟩
      refine absurd ?_ (h.not_below_self (h.get?_parent hp) (k := k))
      rw [Nat.add_comm]
      exact hstep.trans hk
  · exact fun hx => ⟨x, hx, 0, rfl⟩

/-- A tree without some of the instances of a range is sound. -/
theorem Sound.removeInstances (h : t.Sound typed) (range : NodeId) (place count : Nat) :
    (t.removeInstances range place count).2.Sound typed := by
  have hw := h.connected
  have hmem {x : NodeId} := hw.mem_removed_iff range place count x
  have hgone {i : NodeId} (hi : i ∈ ((t.children range).drop place).take count) :
      t.parent i = some range :=
    hw.linked.mp (List.mem_of_mem_drop (List.mem_of_mem_take hi))
  refine h.detach rfl ((h.arena.modify _ _).foldl_release _) (t.get?_removeInstances range place count)
    ?_ ?_ ?_ ?_ (nodup_cut (h.distinct range) place count)
  · -- the root has no parent, so it is neither an instance nor below one
    rw [hmem]
    rintro ⟨i, hi, _ | k, hroot⟩
    · obtain rfl : t.root = i := hroot
      exact nomatch hw.parent_root.symm.trans (hgone hi)
    · obtain ⟨p, hp, _⟩ := hroot
      exact nomatch hw.parent_root.symm.trans hp
  · intro x p hp hm
    obtain ⟨i, hi, k, hk⟩ := hmem.mp hm
    exact hmem.mpr ⟨i, hi, k + 1, p, hp, hk⟩
  · intro x p hp hne hnot hm
    obtain ⟨i, hi, _ | k, hk⟩ := hmem.mp hm
    · obtain rfl : x = i := hk
      exact hne (Option.some.inj (hp.symm.trans (hgone hi)))
    · obtain ⟨q, hq, hk⟩ := hk
      obtain rfl : p = q := Option.some.inj (hp.symm.trans hq)
      exact hnot (hmem.mpr ⟨i, hi, k, hk⟩)
  · intro x
    rw [mem_cut (h.distinct range)]
    exact and_congr_right fun hx => not_congr (hw.mem_removed_child_iff hx).symm

/-! ## Properties of nodes -/

/-- All live nodes have a property of definitions and states. -/
def All (t : Tree) (Q : Definition → Status → Prop) : Prop :=
  ∀ id n, t.get? id = some n → Q n.definition n.status

section

variable {Q : Definition → Status → Prop}

theorem all_ofDefinition {d : Definition} (h : ∀ e ∈ d.parts, Q e { items := e.items }) :
    (ofDefinition d).All Q := by
  intro id n hn
  have hgrown := Arena.grown_plant none Arena.sound_empty d False.elim
  obtain ⟨d', hd', hmem⟩ := Definition.mem_partsAmong.mp (hgrown.stems rfl hn)
  obtain rfl := List.mem_singleton.mp hd'
  rw [hgrown.status rfl hn]
  exact h _ hmem

theorem All.insertInstances (h : t.All Q) (ha : t.arena.Sound) {template : Definition}
    (htemplate : ∀ e ∈ template.parts, Q e { items := e.items }) (range : NodeId) (place count : Nat) :
    (t.insertInstances range place count template).All Q := by
  have hgrown := Arena.grown_below range ha (List.replicate count template)
  have hplanted {x : NodeId} {n : Node}
      (hn : (Arena.plantAll range t.arena (List.replicate count template)).2.get? x = some n) :
      Q n.definition n.status := by
    rcases hgrown.get?_or_new hn with hx | hx
    · exact h x n hx
    · obtain ⟨d, hd, hmem⟩ := Definition.mem_partsAmong.mp (hgrown.stems hx hn)
      rw [List.eq_of_mem_replicate hd] at hmem
      rw [hgrown.status hx hn]
      exact htemplate _ hmem
  intro x n hn
  rw [get?_insertInstances] at hn
  split at hn
  next =>
    obtain ⟨m, hm, rfl⟩ := Option.map_eq_some_iff.mp hn
    have hkept : Q m.definition m.status := hplanted hm
    exact hkept
  next => exact hplanted hn

theorem All.removeInstances (h : t.All Q) (range : NodeId) (place count : Nat) :
    (t.removeInstances range place count).2.All Q := by
  intro x n hn
  rw [get?_removeInstances] at hn
  split at hn
  · exact nomatch hn
  · obtain ⟨m, hm, rfl⟩ := Option.map_eq_some_iff.mp hn
    have hkept : Q m.definition m.status := h x m hm
    split <;> exact hkept

end

/-- All parts of the definitions of live nodes have the property. -/
def Throughout (t : Tree) (P : Definition → Prop) : Prop :=
  t.All fun d _ => ∀ e ∈ d.parts, P e

variable {P : Definition → Prop}

theorem throughout_ofDefinition {d : Definition} (h : ∀ e ∈ d.parts, P e) :
    (ofDefinition d).Throughout P :=
  all_ofDefinition fun _ he e he' => h e (Definition.parts_subset _ he he')

theorem Throughout.insertInstances (h : t.Throughout P) (ha : t.arena.Sound)
    {template : Definition} (htemplate : ∀ e ∈ template.parts, P e) (range : NodeId)
    (place count : Nat) : (t.insertInstances range place count template).Throughout P := by
  refine All.insertInstances h ha ?_ range place count
  exact fun d hd e he => htemplate e (Definition.parts_subset _ hd he)

theorem Throughout.removeInstances (h : t.Throughout P) (range : NodeId) (place count : Nat) :
    (t.removeInstances range place count).2.Throughout P :=
  All.removeInstances h range place count

theorem isRange_ofDefinition {d : Definition} (h : ∀ e ∈ d.parts, e.type ≠ .range) (id : NodeId) :
    (ofDefinition d).isRange id = false := by
  cases hn : (ofDefinition d).get? id with
  | none => simp [isRange, hn]
  | some n =>
    have hne := throughout_ofDefinition h id n hn _ n.definition.self_mem_parts
    simpa [isRange, hn, Node.isRange] using hne

/-- No live node is irrelevant by its own condition. -/
def Relevant (t : Tree) : Prop := t.All fun _ status => status.relevant

theorem relevant_ofDefinition (d : Definition) : (ofDefinition d).Relevant :=
  all_ofDefinition fun _ _ => rfl

theorem Relevant.insertInstances (h : t.Relevant) (ha : t.arena.Sound) (range : NodeId)
    (place count : Nat) (template : Definition) :
    (t.insertInstances range place count template).Relevant :=
  All.insertInstances h ha (fun _ _ => rfl) range place count

theorem Relevant.removeInstances (h : t.Relevant) (range : NodeId) (place count : Nat) :
    (t.removeInstances range place count).2.Relevant :=
  All.removeInstances h range place count

/-- A live node stays as it is when instances are added, except that their range lists them. -/
theorem kept_insertInstances (ha : t.arena.Sound) {x : NodeId} {n : Node}
    (hn : t.get? x = some n) (range : NodeId) (place count : Nat) (template : Definition) :
    ∃ children, (t.insertInstances range place count template).get? x
      = some { n with children } ∧ (x ≠ range → children = n.children) := by
  have hkept := (Arena.grown_below range ha (List.replicate count template)).kept hn
  rw [get?_insertInstances]
  by_cases hx : x = range
  · subst hx
    rw [if_pos rfl, hkept]
    exact ⟨_, rfl, fun hne => absurd rfl hne⟩
  · rw [if_neg hx, hkept]
    exact ⟨_, rfl, fun _ => rfl⟩

theorem definition?_insertInstances (ha : t.arena.Sound) {x : NodeId} {n : Node}
    (hn : t.get? x = some n) (range : NodeId) (place count : Nat) (template : Definition) :
    (t.insertInstances range place count template).definition? x = t.definition? x := by
  obtain ⟨children, hkept, _⟩ := kept_insertInstances ha hn range place count template
  rw [definition?, definition?, hkept, hn]
  rfl

/-- A new node stands below the range or below another new node, as its definition wants it. -/
theorem new_insertInstances (ha : t.arena.Sound) {range x : NodeId} {place count : Nat}
    {template : Definition} {n : Node} (hnone : t.get? x = none)
    (hn : (t.insertInstances range place count template).get? x = some n)
    (hrange : ∃ r, t.get? range = some r) :
    n.status = { items := n.definition.items } ∧ n.content = .initial n.definition ∧
      ∃ p, n.parent = some p ∧ (p = range ∨ t.get? p = none) := by
  have hgrown := Arena.grown_below range ha (List.replicate count template)
  have hne : x ≠ range := by
    rintro rfl
    obtain ⟨r, hr⟩ := hrange
    exact nomatch hnone.symm.trans hr
  rw [get?_insertInstances, if_neg hne] at hn
  refine ⟨hgrown.status hnone hn, hgrown.content hnone hn, ?_⟩
  rcases (hgrown.placed hnone hn).up with htop | ⟨p, _, hp, hpnone, _⟩
  · obtain ⟨_, _, _, m, hm, _, hparent⟩ := hgrown.exists_top htop
    obtain rfl : m = n := Option.some.inj (hm.symm.trans hn)
    exact ⟨range, hparent, .inl rfl⟩
  · exact ⟨p, hp, .inr hpnone⟩

theorem definition?_removeInstances {range x : NodeId} {place count : Nat}
    (hx : x ∉ (t.removeInstances range place count).1) :
    (t.removeInstances range place count).2.definition? x = t.definition? x := by
  rw [definition?, definition?, get?_removeInstances, if_neg hx, Option.map_map]
  cases t.get? x with
  | none => rfl
  | some n =>
    simp only [Option.map_some, Function.comp_apply]
    split <;> rfl

theorem exists_of_template? {range : NodeId} {template : Definition}
    (h : t.template? range = some template) : ∃ n header instances, t.get? range = some n ∧
      n.definition = .range header template instances := by
  unfold template? definition? at h
  cases hn : t.get? range with
  | none => simp [hn] at h
  | some n =>
    cases hd : n.definition with
    | range header own instances =>
      obtain rfl : own = template := by simpa [hn, hd] using h
      exact ⟨n, header, instances, rfl, hd⟩
    | root | group | inst | value | select => simp [hn, hd] at h

theorem Throughout.template (h : t.Throughout P) {range : NodeId} {template : Definition}
    (htemplate : t.template? range = some template) :
    t.isRange range ∧ ∃ header instances, P (.range header template instances) ∧
      ∀ e ∈ template.parts, P e := by
  obtain ⟨n, header, instances, hn, hd⟩ := exists_of_template? htemplate
  have hparts := h range n hn
  rw [hd] at hparts
  refine ⟨isRange_iff.mpr ⟨n, hn, by rw [hd]; rfl⟩, header, instances, ?_, ?_⟩
  · exact hparts _ (Definition.self_mem_parts _)
  · exact fun e he => hparts e (List.mem_cons_of_mem _ (List.mem_append_left _ he))

end Tree

end ReactiveForm
