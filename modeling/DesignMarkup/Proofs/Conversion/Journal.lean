import DesignMarkup.Proofs.Conversion.Walk

/-!
# `Proofs.Conversion.Journal` — conversions with a journal of the names they mint

To say which names a conversion mints, and when, the conversion is run with a journal beside its context:
minting a name enters it there, and nothing else does. The journal only listens. Run with it, every
conversion has the answer and leaves the context that it has and leaves without it, also when it fails
half-way, so what is said of the journal is said of the conversion itself.

## Contents

* `Journal`, `Noted`: a context with the names minted so far, and computations on it;
* `mintNoted`, `Node.toElementNoted`, `convertNoted`: the conversion with its journal;
* `Erases`: the journal forgotten; `toElement_erases`, `convert_erases`;
* `Keeps`: what a computation preserves, failing or not.
-/

namespace DesignMarkup

/-! ## The journal -/

/-- A context, and the names minted so far in order. -/
structure Journal where
  context : Context
  minted : List String

/-- The journal before the first conversion. -/
def Journal.start : Journal :=
  ⟨.fresh, []⟩

/-- A computation that keeps the journal; what was noted outlives a failure. -/
abbrev Noted := ExceptT ConversionError (StateM Journal)

/-- A computation that mints nothing. -/
def unnoted {α : Type} (x : Conversion α) : Noted α :=
  fun j => ((x.run j.context).1, { j with context := (x.run j.context).2 })

/-- The next class with a stem, entered into the journal. -/
def mintNoted (stem : String) : Noted String := do
  let name ← unnoted (mint stem)
  modify fun j => { j with minted := j.minted ++ [name] }
  return name

/-! ## Conversion with a journal -/

/-- What is done at a node before its children. -/
def Layer.enterNoted (l : Layer) (r : Role) : Noted (List String) := do
  let own ← mintNoted (r.stem l.kind)
  let declarations ← unnoted (rounding (l.roleDeclarations r))
  unnoted (recordRule own declarations)
  unnoted (rounding (l.roleClasses r own))

mutual

/-- The element of a node. -/
def Node.toElementNoted (options : Options) : Node → Noted Html.Element
  | .node l children => do
    let role := l.role options
    let classes ← l.enterNoted role
    if role.showsChildren then
      let elements ← Node.toElementsNoted options children
      return l.element role classes elements
    else return l.element role classes []

/-- The elements of several nodes in order. -/
def Node.toElementsNoted (options : Options) : List Node → Noted (List Html.Element)
  | [] => return []
  | n :: rest => do
    let e ← Node.toElementNoted options n
    let es ← Node.toElementsNoted options rest
    return e :: es

end

/-- The lines of a node at a depth. -/
def renderNoted (options : Options) (root : Option Node) (depth : Int) : Noted String :=
  match root with
  | none => return ""
  | some n => do
    unnoted (entering depth)
    let e ← n.toElementNoted options
    return e.render depth

/-- A whole design. -/
def convertNoted (options : Options) (root : Option Node) : Noted Result := do
  let html ← renderNoted options root options.rootDepth
  return ⟨html, componentsOf root⟩

/-! ## The journal forgotten -/

/-- Without its journal a computation is the other one: the same answer and the same context. -/
def Erases {α : Type} (x : Noted α) (y : Conversion α) : Prop :=
  ∀ j, y.run j.context = ((x.run j).1, (x.run j).2.context)

theorem Erases.context {α : Type} {x : Noted α} {y : Conversion α} (h : Erases x y) (j : Journal) :
    (x.run j).2.context = (y.run j.context).2 :=
  (congrArg Prod.snd (h j)).symm

theorem erases_unnoted {α : Type} (x : Conversion α) : Erases (unnoted x) x :=
  fun _ => rfl

theorem erases_pure {α : Type} (a : α) : Erases (pure a) (pure a) :=
  fun _ => rfl

theorem Erases.bind {α β : Type} {x : Noted α} {y : Conversion α} {f : α → Noted β}
    {g : α → Conversion β} (hx : Erases x y) (hf : ∀ a, Erases (f a) (g a)) :
    Erases (x >>= f) (y >>= g) := by
  intro j
  -- both fail here with the same error, or both go on from contexts that are still the same
  have hy := hx j
  rcases hr : x.run j with ⟨r, j'⟩
  rw [hr] at hy
  cases r with
  | error e => rw [run_bind_error hr, run_bind_error hy]
  | ok a => rw [run_bind_ok hr, run_bind_ok hy]; exact hf a j'

theorem erases_mint (stem : String) : Erases (mintNoted stem) (mint stem) :=
  fun _ => rfl

theorem erases_enter (l : Layer) (r : Role) : Erases (l.enterNoted r) (l.enter r) :=
  (erases_mint _).bind fun _ => (erases_unnoted _).bind fun _ =>
    (erases_unnoted _).bind fun _ => erases_unnoted _

mutual

/-- **The walk with a journal is the walk.** -/
theorem toElement_erases (options : Options) (n : Node) :
    Erases (n.toElementNoted options) (n.toElement options) := by
  match n with
  | .node l children =>
    rw [Node.toElementNoted, Node.toElement]
    refine (erases_enter l _).bind fun classes => ?_
    split
    · exact (toElements_erases options children).bind fun _ => erases_pure _
    · exact erases_pure _

theorem toElements_erases (options : Options) (ns : List Node) :
    Erases (Node.toElementsNoted options ns) (Node.toElements options ns) := by
  match ns with
  | [] =>
    rw [Node.toElementsNoted, Node.toElements]
    exact erases_pure _
  | n :: rest =>
    rw [Node.toElementsNoted, Node.toElements]
    exact (toElement_erases options n).bind fun _ =>
      (toElements_erases options rest).bind fun _ => erases_pure _

end

theorem render_erases (options : Options) (root : Option Node) (depth : Int) :
    Erases (renderNoted options root depth) (renderNode options root depth) := by
  cases root with
  | none => exact erases_pure _
  | some n =>
    exact (erases_unnoted _).bind fun _ =>
      (toElement_erases options n).bind fun _ => erases_pure _

/-- **A conversion with a journal is the conversion.** -/
theorem convert_erases (options : Options) (root : Option Node) :
    Erases (convertNoted options root) (convert options root) :=
  (render_erases options root options.rootDepth).bind fun _ => erases_pure _

/-! ## What a computation preserves -/

/-- A property of journals that a computation preserves, whether it succeeds or fails. -/
def Keeps {α : Type} (holds : Journal → Prop) (x : Noted α) : Prop :=
  ∀ j, holds j → holds (x.run j).2

section Keeps

variable {holds : Journal → Prop} {α β : Type}

theorem keeps_pure (a : α) : Keeps holds (pure a) :=
  fun _ h => h

theorem Keeps.bind {x : Noted α} {f : α → Noted β} (hx : Keeps holds x)
    (hf : ∀ a, Keeps holds (f a)) : Keeps holds (x >>= f) := by
  intro j hj
  -- after a failure the journal is the one that the first part left
  have hj' := hx j hj
  rcases hr : x.run j with ⟨r, j'⟩
  rw [hr] at hj'
  cases r with
  | error e => rw [run_bind_error hr]; exact hj'
  | ok a => rw [run_bind_ok hr]; exact hf a j' hj'

/-- A computation that leaves the context alone preserves everything. -/
theorem keeps_unnoted {x : Conversion α} (h : ∀ c, (x.run c).2 = c) : Keeps holds (unnoted x) := by
  intro j hj
  have he : ((unnoted x).run j).2 = j := by
    show { j with context := (x.run j.context).2 } = j
    rw [h]
  rw [he]
  exact hj

mutual

/-- **What every entered layer preserves, a walk preserves.** -/
theorem keeps_toElement (h : ∀ (l : Layer) (r : Role), Keeps holds (l.enterNoted r))
    (options : Options) (n : Node) : Keeps holds (n.toElementNoted options) := by
  match n with
  | .node l children =>
    rw [Node.toElementNoted]
    refine (h l _).bind fun classes => ?_
    split
    · exact (keeps_toElements h options children).bind fun _ => keeps_pure _
    · exact keeps_pure _

theorem keeps_toElements (h : ∀ (l : Layer) (r : Role), Keeps holds (l.enterNoted r))
    (options : Options) (ns : List Node) : Keeps holds (Node.toElementsNoted options ns) := by
  match ns with
  | [] =>
    rw [Node.toElementsNoted]
    exact keeps_pure _
  | n :: rest =>
    rw [Node.toElementsNoted]
    exact (keeps_toElement h options n).bind fun _ =>
      (keeps_toElements h options rest).bind fun _ => keeps_pure _

end

theorem keeps_render (h : ∀ (l : Layer) (r : Role), Keeps holds (l.enterNoted r))
    (options : Options) (root : Option Node) (depth : Int) :
    Keeps holds (renderNoted options root depth) := by
  cases root with
  | none => exact keeps_pure _
  | some n =>
    exact (keeps_unnoted fun _ => rfl).bind fun _ =>
      (keeps_toElement h options n).bind fun _ => keeps_pure _

theorem keeps_convert (h : ∀ (l : Layer) (r : Role), Keeps holds (l.enterNoted r))
    (options : Options) (root : Option Node) : Keeps holds (convertNoted options root) :=
  (keeps_render h options root options.rootDepth).bind fun _ => keeps_pure _

end Keeps

/-! ## Entering a layer -/

theorem run_mintNoted (stem : String) (j : Journal) :
    (mintNoted stem).run j =
      (.ok (numberedName stem (j.context.counter + 1)),
        ⟨j.context.count, j.minted ++ [numberedName stem (j.context.counter + 1)]⟩) :=
  rfl

/-- Without minting nothing is noted. -/
theorem keeps_minted {α : Type} (minted : List String) (x : Conversion α) :
    Keeps (fun j => j.minted = minted) (unnoted x) :=
  fun _ h => h

/-- **Entering a layer notes one name**, the one minted for it, also if it fails. -/
theorem minted_enterNoted (l : Layer) (r : Role) (j : Journal) :
    ((l.enterNoted r).run j).2.minted =
      j.minted ++ [numberedName (r.stem l.kind) (j.context.counter + 1)] := by
  rw [Layer.enterNoted, run_bind_ok (run_mintNoted _ j)]
  exact (keeps_minted _ _).bind (fun _ => (keeps_minted _ _).bind fun _ => keeps_minted _ _) _ rfl

end DesignMarkup
