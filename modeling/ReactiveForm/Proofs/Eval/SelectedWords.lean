import ReactiveForm.Proofs.Distinct
import ReactiveForm.Proofs.Eval.Reference
import ReactiveForm.Proofs.Eval.Steady
import ReactiveForm.Proofs.Number.Exact
import ReactiveForm.Proofs.Text.Words
import ReactiveForm.Proofs.Tree.Document
import ReactiveForm.Proofs.Tree.Entry

/-!
# Selected values as words of a text

A selection and the text of its values stand for each other. A text of words that is written to a
selection which is open to all values selects these words, and the node has the text again; and the
functions on such a text find the words that it was made of.
-/

set_option autoImplicit false

namespace ReactiveForm

/-! ## Finding words -/

namespace Text

variable {ws : List String}

/-- The place of a word is a number rounded down that is neither negative nor infinite. -/
theorem wordAt_intercalate (hws : ∀ w ∈ ws, IsWord w) (x : Float) :
    wordAt (" ".intercalate ws) x
      = if x.isFinite ∧ 0.0 ≤ x then ws[⌊Number.exact x⌋₊]?.getD "" else "" := by
  rw [wordAt, words_intercalate hws]
  by_cases hx : x.isFinite ∧ 0.0 ≤ x
  · rw [Number.whole_ofFloat hx.1 hx.2]
    simp [hx]
  · simp [hx]

theorem hasWord_intercalate (hws : ∀ w ∈ ws, IsWord w) (wanted : String) :
    hasWord (" ".intercalate ws) wanted = decide (trimmed wanted ∈ ws) := by
  rw [hasWord, words_intercalate hws, List.contains_eq_mem]

end Text

/-! ## Writing words -/

namespace Tree

variable {t : Tree} {id : NodeId} {n : Node}

/-- A leaf has no text but its own. -/
theorem text_leaf (hw : t.WellFormed) (hl : t.isLeaf id) : t.text id = (t.value? id).getD "" := by
  obtain ⟨n, hn, _⟩ := isLeaf_iff.mp hl
  rw [hw.text_eq (contains_iff.mpr ⟨n, hn⟩), hw.children_of_isLeaf hl]
  exact String.append_empty

/-- What is written to a selection that is open to all values is selected, each value once. -/
theorem content?_write_open {header : Header} {default : List String} (hfilled : t.Filled)
    (hn : t.get? id = some n) (hd : n.definition = .select header .multiple default [] none)
    (text : String) :
    (t.write id text).2.content? id = some (.selection (Text.words text).eraseDups) := by
  have hsuits := hfilled hn
  obtain ⟨definition, parent, children, content, status⟩ := n
  obtain rfl : definition = .select header .multiple default [] none := hd
  rw [write_eq, content?, get?_rewrite, if_pos rfl, hn]
  cases content with
  | selection before => rfl
  | inner | text => cases hsuits

theorem text_write_open {header : Header} {default : List String} (hw : t.WellFormed)
    (hfilled : t.Filled) (hn : t.get? id = some n)
    (hd : n.definition = .select header .multiple default [] none) (text : String) :
    (t.write id text).2.text id = " ".intercalate (Text.words text).eraseDups := by
  have hcontent := content?_write_open hfilled hn hd text
  have hcoherent : t.Coherent := ⟨hw.connected, hfilled⟩
  obtain ⟨hframe, _⟩ := hcoherent.rewrite (Node.fits_writing text) id
  rw [← write_eq] at hframe
  have hleaf : t.isLeaf id := isLeaf_iff.mpr ⟨n, hn, by rw [hd]; rfl⟩
  rw [text_leaf (hframe.wellFormed hw) (by rwa [hframe.isLeaf_eq]), value?, hcontent]
  rfl

end Tree

/-! ## Calling functions -/

namespace Reading

variable {N α : Type}

theorem Steady.gives {m : Reading N α} (h : Steady m) {a : α} (ha : m.value = .ok a) :
    Gives m a := by
  obtain ⟨out, hout, _⟩ := h
  exact fun s => (hout s).trans ((hout none).symm.trans ha)

end Reading

open Reading (Gives Steady)

variable {N : Type} [DecidableEq N] [Ord N]

namespace Call

variable (c : Call N) (v : Value N)

theorem gives_valueText : Gives (c.valueText v) (v.toText c.document.toHostTree) := by
  match v with
  | .nodes [] => exact .pure ""
  | .nodes (x :: _) => exact .bind (.note [x]) (.pure _)
  | .atom a => exact .pure _

theorem gives_valueNumber : Gives (c.valueNumber v) (v.toNumber c.document.toHostTree) := by
  cases v with
  | atom a => exact .pure _
  | nodes xs => exact .bind (c.gives_valueText (.nodes xs)) (.pure _)

variable {c v}

theorem gives_apply_one {f : Function N} {type : Option ValueType} {w u : Value N}
    (hparameters : f.parameters = [type]) (hresult : f.result = none)
    (hconvert : Gives (c.convert v type) w) (hbody : Gives (f.body c [w]) u) :
    Gives (f.apply c [v]) u := by
  unfold Function.apply
  rw [hparameters, hresult]
  simp only [convertAll]
  refine .bind (.bind hconvert (.bind (.pure []) (.pure [w]))) (.bind hbody (.pure u))

theorem gives_apply_two {f : Function N} {type type' : Option ValueType} {v' w w' u : Value N}
    (hparameters : f.parameters = [type, type']) (hresult : f.result = none)
    (hconvert : Gives (c.convert v type) w) (hconvert' : Gives (c.convert v' type') w')
    (hbody : Gives (f.body c [w, w']) u) : Gives (f.apply c [v, v']) u := by
  unfold Function.apply
  rw [hparameters, hresult]
  simp only [convertAll]
  refine .bind (.bind hconvert (.bind ?_ (.pure [w, w']))) (.bind hbody (.pure u))
  exact .bind hconvert' (.bind (.pure []) (.pure [w']))

end Call

namespace Environment

variable {env : Environment N} {focus : Focus N}

theorem gives_evalAll {args : List Expr} {vs : List (Value N)}
    (hargs : List.Forall₂ (fun e v => Gives (env.eval e focus) v) args vs) :
    Gives (env.evalAll args focus) vs := by
  induction hargs with
  | nil =>
    simp only [evalAll]
    exact .pure []
  | cons hv _ ih =>
    simp only [evalAll]
    exact .bind hv (.bind ih (.pure _))

/-- A call comes to what the function makes of the values of its arguments. -/
theorem gives_call {name : String} {f : Function N} {args : List Expr} {vs : List (Value N)}
    {u : Value N} (hfind : env.library.find? name = some f) (haccepts : f.accepts args.length)
    (hname : name ≠ "if") (hargs : List.Forall₂ (fun e v => Gives (env.eval e focus) v) args vs)
    (happly : Gives (f.apply (env.call focus) vs) u) :
    Gives (env.eval (.call name args) focus) u := by
  have hresolve : env.library.resolve name args.length = .ok f := by
    rw [Library.resolve, hfind]
    exact if_pos haccepts
  simp only [eval, hresolve, hname, decide_false, Bool.and_false, Bool.false_eq_true, if_false]
  exact .bind (.pure f) (.bind (gives_evalAll hargs) happly)

/-- Lists of selected values and texts stand for each other.

Let a text be made of words by single spaces. In a library where the built-in functions have their
names, `count-selected` counts the words; `selected-at` finds the word at a place counted from zero,
of which the fraction is dropped, and the empty text at all other numbers; `selected` asks for a word
among them, blanks around it aside. If no word is repeated, then writing the text to a selection of
many values that declares neither items nor an itemset selects just these words, and the text of the
node is the text written. -/
theorem selected_words (hsteady : env.library.Steady)
    (hbuiltins : ∀ name f, Library.builtins.find? name = some f →
      env.library.find? name = some f)
    {ws : List String} (hws : ∀ w ∈ ws, Text.IsWord w) {list : Expr} {v : Value N}
    (hlist : env.evaluate list = .ok v)
    (htext : v.toText env.document.toHostTree = " ".intercalate ws) :
    env.evaluate (.call "count-selected" [list]) = .ok (.number (Float.ofNat ws.length)) ∧
    (∀ place u x, env.evaluate place = .ok u → u.toNumber env.document.toHostTree = x →
      env.evaluate (.call "selected-at" [list, place])
        = .ok (.string (if x.isFinite ∧ 0.0 ≤ x then ws[⌊Number.exact x⌋₊]?.getD "" else ""))) ∧
    (∀ item u, env.evaluate item = .ok u →
      env.evaluate (.call "selected" [list, item])
        = .ok (.boolean (decide (Text.trimmed (u.toText env.document.toHostTree) ∈ ws)))) ∧
    (ws.Nodup → ∀ (t : Tree) id n header default, t.WellFormed → t.Filled →
      t.get? id = some n → n.definition = .select header .multiple default [] none →
        (t.write id (" ".intercalate ws)).2.content? id = some (.selection ws) ∧
        (t.write id (" ".intercalate ws)).2.text id = " ".intercalate ws) := by
  have hwords := Text.words_intercalate hws
  have hgives {e : Expr} {u : Value N} (hu : env.evaluate e = .ok u) :
      Gives (env.eval e env.focus) u :=
    (steady_eval hsteady e env.focus).gives hu
  have hstring (u : Value N) : Gives ((env.call env.focus).convert u (some .string))
      (.string (u.toText env.document.toHostTree)) :=
    .bind (Call.gives_valueText _ u) (.pure _)
  have hnumber (u : Value N) : Gives ((env.call env.focus).convert u (some .number))
      (.number (u.toNumber env.document.toHostTree)) :=
    .bind (Call.gives_valueNumber _ u) (.pure _)
  -- the text splits into `ws` again, so each call sees the words themselves
  refine ⟨?_, ?_, ?_, ?_⟩
  · refine gives_call (hbuiltins _ _ rfl) rfl (by decide) (.cons (hgives hlist) .nil) ?_ none
    refine Call.gives_apply_one rfl rfl (hstring v) ?_
    have hcount : (Text.words (" ".intercalate ws)).length = ws.length := by rw [hwords]
    rw [htext, ← hcount]
    exact .pure _
  · rintro place u x hplace rfl
    refine gives_call (hbuiltins _ _ rfl) rfl (by decide)
      (.cons (hgives hlist) (.cons (hgives hplace) .nil)) ?_ none
    refine Call.gives_apply_two rfl rfl (hstring v) (hnumber u) ?_
    rw [htext, ← Text.wordAt_intercalate hws]
    exact .pure _
  · intro item u hitem
    refine gives_call (hbuiltins _ _ rfl) rfl (by decide)
      (.cons (hgives hlist) (.cons (hgives hitem) .nil)) ?_ none
    refine Call.gives_apply_two rfl rfl (hstring v) (hstring u) ?_
    rw [htext, ← Text.hasWord_intercalate hws]
    exact .pure _
  · intro hnodup t id n header default hw hfilled hn hd
    have hdistinct := eraseDups_of_nodup hnodup
    have hcontent := Tree.content?_write_open hfilled hn hd (" ".intercalate ws)
    have hwritten := Tree.text_write_open hw hfilled hn hd (" ".intercalate ws)
    rw [hwords, hdistinct] at hcontent hwritten
    exact ⟨hcontent, hwritten⟩

end Environment

/-! ## A selection that is open to all values -/

def Definition.palette : Definition :=
  .root ⟨"/f", "f", {}, none, none⟩
    [.select ⟨"/f/s", "s", {}, none, none⟩ .multiple ["c"] [] none]

def Tree.palette : Tree := .ofDefinition .palette

/-- The document after two words have been written. -/
def Environment.palette : Environment ViewNode where
  document := (Tree.palette.write ⟨1, 0⟩ "a b").2.document
  current := .document
  library := .builtins

/-- The path to the selection. -/
def Expr.palette : Expr := .path .root [⟨.child, .name "f", []⟩, ⟨.child, .name "s", []⟩]

theorem Environment.selected_words_palette :
    Environment.palette.evaluate (.call "count-selected" [.palette])
      = .ok (.number (Float.ofNat 2)) ∧
    Environment.palette.evaluate (.call "selected-at" [.palette, .number 1.5])
      = .ok (.string "b") ∧
    Environment.palette.evaluate (.call "selected" [.palette, .text "\ta "])
      = .ok (.boolean true) ∧
    (Tree.palette.write ⟨1, 0⟩ "a b").2.content? ⟨1, 0⟩ = some (.selection ["a", "b"]) := by
  have hwords : ∀ w ∈ ["a", "b"], Text.IsWord w := by
    intro w hw
    rcases List.mem_pair.mp hw with rfl | rfl <;> exact ⟨by decide, by simp [Text.isBlank]⟩
  have hsteady : Environment.palette.library.Steady :=
    fun e he => (Builtin.regular_builtins e he).steady
  have hlist : Environment.palette.evaluate .palette = .ok (.nodes [.element ⟨1, 0⟩]) := by
    decide +kernel
  have htext : (Value.nodes [ViewNode.element ⟨1, 0⟩]).toText
      Environment.palette.document.toHostTree = " ".intercalate ["a", "b"] := by
    decide +kernel
  obtain ⟨hcount, hat, hmember, hwrite⟩ :=
    selected_words hsteady (fun _ _ h => h) hwords hlist htext
  have hplace : ⌊Number.exact 1.5⌋₊ = 1 := by
    rw [← Number.whole_ofFloat (by decide +kernel) (by decide +kernel)]
    decide +kernel
  have hsound : Tree.palette.Sound True :=
    Tree.sound_ofDefinition fun _ => ⟨⟨rfl, trivial, trivial⟩, rfl⟩
  obtain ⟨n, hn, hd⟩ : ∃ n, Tree.palette.get? ⟨1, 0⟩ = some n ∧
      n.definition = .select ⟨"/f/s", "s", {}, none, none⟩ .multiple ["c"] [] none :=
    ⟨_, rfl, rfl⟩
  refine ⟨hcount, ?_, ?_, ?_⟩
  · have hsecond := hat (.number 1.5) (.number 1.5) 1.5 rfl rfl
    rw [hplace, if_pos (by decide +kernel)] at hsecond
    exact hsecond
  · have hfirst := hmember (.text "\ta ") (.string "\ta ") rfl
    rw [hfirst]
    decide +kernel
  · exact (hwrite (by decide) _ _ n _ _ (hsound.wellFormed trivial) hsound.filled hn hd).1

end ReactiveForm
