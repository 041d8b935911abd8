import DesignMarkup.Components
import DesignMarkup.Proofs.Design.Addresses

/-!
# `Proofs.Components` — which nodes are reported as components

The scan decides at each node twice: whether to report it and whether to look below it. The two decisions
overlap in frames only, so what is reported is told by the way that leads to a node: its own kind is one of
the reported ones, and everything between the root and it is a frame or a group. The kind of the root itself
plays no part.

## Contents

* `Node.HasKind`: the kind of what stands at an address;
* `Node.IsComponentAddress`: **the addresses of the components**;
* `Node.IsReached`, `isReached_iff`: the same, with the root as one of the nodes between;
* `scanComponents_addresses`: **the scan reports what stands there**, in the order of the walk.
-/

namespace DesignMarkup

namespace Node

/-- What stands at the address is of one of the kinds. -/
def HasKind (n : Node) (p : Address) (kinds : List Kind) : Prop :=
  ∃ l, n.Shows p l ∧ l.kind ∈ kinds

/-- **The address of a component**: strictly below the root there is a component, an instance or a frame, and
all that stands strictly between are frames and groups. -/
def IsComponentAddress (n : Node) (p : Address) : Prop :=
  p ≠ [] ∧ n.HasKind p [.component, .inst, .frame] ∧
    ∀ q, q ≠ [] → q <+: p → q ≠ p → n.HasKind q [.frame, .group]

/-- The address of a node that is reported if the scan gets to the root, which counts as one of the nodes that
are searched. -/
def IsReached (n : Node) (p : Address) : Prop :=
  n.HasKind p [.component, .inst, .frame] ∧ ∀ q, q <+: p → q ≠ p → n.HasKind q [.frame, .group]

section Kinds

variable {n c : Node} {i : Nat} {p : Address} {kinds : List Kind}

/-- The kind at an address below a child is seen from the child. -/
theorem hasKind_cons_iff (hc : n.children[i]? = some c) : n.HasKind (i :: p) kinds ↔ c.HasKind p kinds := by
  simp only [HasKind, Shows, at?, hc, Option.bind_some]

theorem hasKind_nil_iff : n.HasKind [] kinds ↔ n.layer.kind ∈ kinds := by
  simp [HasKind, Shows, at?]

/-- Where there is a kind there is a child. -/
theorem exists_child_of_hasKind (h : n.HasKind (i :: p) kinds) : ∃ c, n.children[i]? = some c := by
  obtain ⟨l, hl, -⟩ := h
  rw [Shows, at?] at hl
  cases hc : n.children[i]? with
  | none => rw [hc] at hl; cases hl
  | some c => exact ⟨c, rfl⟩

/-- The scan begins at the children: below the root a component is what is reached from one of them. -/
theorem isComponentAddress_iff : n.IsComponentAddress p ↔ LeadsInto 0 n.children IsReached p := by
  cases p with
  | nil =>
    refine iff_of_false (fun h => h.1 rfl) ?_
    rintro ⟨k, c, q, hp, -⟩
    cases hp
  | cons i p =>
    rw [cons_leadsInto_iff]
    constructor
    · rintro ⟨-, hkind, hbetween⟩
      obtain ⟨c, hc⟩ := exists_child_of_hasKind hkind
      refine ⟨c, hc, (hasKind_cons_iff hc).mp hkind, fun q hq hne => (hasKind_cons_iff hc).mp ?_⟩
      exact hbetween (i :: q) (List.cons_ne_nil i q) ((List.prefix_cons_inj i).mpr hq)
        fun he => hne (List.cons.inj he).2
    · rintro ⟨c, hc, hkind, hbetween⟩
      refine ⟨List.cons_ne_nil i p, (hasKind_cons_iff hc).mpr hkind, fun q hne hq hqp => ?_⟩
      obtain ⟨j, q, rfl⟩ := List.exists_cons_of_ne_nil hne
      obtain ⟨rfl, hprefix⟩ := List.cons_prefix_cons.mp hq
      exact (hasKind_cons_iff hc).mpr (hbetween q hprefix fun he => hqp (he ▸ rfl))

/-- **What is reached from a node**: the node itself if it is reported, and the components below it if it is
searched. -/
theorem isReached_iff : n.IsReached p ↔
    (p = [] ∧ n.layer.kind.isReported = true) ∨
      (n.layer.kind.isScanned = true ∧ LeadsInto 0 n.children IsReached p) := by
  have hreported : n.HasKind [] [.component, .inst, .frame] ↔ n.layer.kind.isReported = true := by
    rw [hasKind_nil_iff]
    cases n.layer.kind <;> decide
  have hscanned : n.HasKind [] [.frame, .group] ↔ n.layer.kind.isScanned = true := by
    rw [hasKind_nil_iff]
    cases n.layer.kind <;> decide
  rw [← isComponentAddress_iff, ← hreported, ← hscanned]
  constructor
  · rintro ⟨hkind, hbetween⟩
    by_cases hp : p = []
    · rw [hp] at hkind
      exact .inl ⟨hp, hkind⟩
    · exact .inr ⟨hbetween [] List.nil_prefix (Ne.symm hp), hp, hkind, fun q _ => hbetween q⟩
  · rintro (⟨rfl, hkind⟩ | ⟨hroot, -, hkind, hbetween⟩)
    · exact ⟨hkind, fun q hq hne => absurd (List.prefix_nil.mp hq) hne⟩
    · refine ⟨hkind, fun q hq hne => ?_⟩
      by_cases hnil : q = []
      · rw [hnil]
        exact hroot
      · exact hbetween q hnil hq hne

end Kinds

end Node

/-! ## The scan -/

open Node

mutual

/-- What is reported from a node on is what is reached from it, in the order of the addresses. -/
theorem scanNode_addresses (n : Node) : ∃ ps : List Address,
    ps.Sublist n.addresses ∧ (∀ p, p ∈ ps ↔ n.IsReached p) ∧
      List.Forall₂ n.Shows ps (scanNode n) := by
  match n with
  | .node l children =>
    obtain ⟨below, hsub, hmem, hshows⟩ := scanNodes_addresses 0 children
    -- the two decisions: whether the node is reported, and whether it is searched
    refine ⟨(if l.kind.isReported then [[]] else []) ++ if l.kind.isScanned then below else [],
      ?_, ?_, ?_⟩
    · show List.Sublist _ ([[]] ++ addressesFrom 0 children)
      refine List.Sublist.append ?_ ?_
      · split
        · exact .refl _
        · exact List.nil_sublist _
      · split
        · exact hsub
        · exact List.nil_sublist _
    · intro p
      rw [isReached_iff, List.mem_append]
      refine or_congr ?_ ?_
      · by_cases hreported : l.kind.isReported = true <;> simp [layer, hreported]
      · by_cases hscanned : l.kind.isScanned = true <;> simp [layer, Node.children, hscanned, hmem]
    · rw [scanNode]
      refine List.rel_append ?_ ?_
      · split
        · exact .cons rfl .nil
        · exact .nil
      · split
        · exact hshows.imp fun p m h => shows_iff.mpr (.inr h)
        · exact .nil

theorem scanNodes_addresses (i : Nat) (ns : List Node) : ∃ ps : List Address,
    ps.Sublist (addressesFrom i ns) ∧ (∀ p, p ∈ ps ↔ LeadsInto i ns IsReached p) ∧
      List.Forall₂ (fun p l => LeadsInto i ns (fun c q => c.Shows q l) p) ps (scanNodes ns) := by
  match ns with
  | [] => exact ⟨[], .refl _, fun p => iff_of_false List.not_mem_nil not_leadsInto_nil, .nil⟩
  | n :: rest =>
    obtain ⟨first, hsub, hmem, hshows⟩ := scanNode_addresses n
    obtain ⟨others, hsub', hmem', hshows'⟩ := scanNodes_addresses (i + 1) rest
    refine ⟨first.map (i :: ·) ++ others, (hsub.map _).append hsub', fun p => ?_, ?_⟩
    · rw [List.mem_append, List.mem_map, hmem', leadsInto_cons_iff]
      refine or_congr_left (exists_congr fun q => ?_)
      rw [hmem, and_comm, eq_comm]
    · rw [scanNodes]
      refine List.rel_append (List.forall₂_map_left_iff.mpr ?_) ?_
      · exact hshows.imp fun q l h => leadsInto_cons_iff.mpr (.inl ⟨q, rfl, h⟩)
      · exact hshows'.imp fun p l h => leadsInto_cons_iff.mpr (.inr h)

end

/-- **The scan reports exactly the components**: what stands at the addresses of the components, one by one,
in the order in which a walk over the design meets them. -/
theorem scanComponents_addresses (n : Node) :
    n.addresses.Pairwise (· < ·) ∧ List.Forall₂ n.Shows n.addresses n.walk ∧
      ∃ ps : List Address, ps.Sublist n.addresses ∧ (∀ p, p ∈ ps ↔ n.IsComponentAddress p) ∧
        List.Forall₂ n.Shows ps (scanComponents n) := by
  refine ⟨pairwise_addresses n, shows_walk n, ?_⟩
  obtain ⟨ps, hsub, hmem, hshows⟩ := scanNodes_addresses 0 n.children
  have haddresses : (addressesFrom 0 n.children).Sublist n.addresses := by
    obtain ⟨l, children⟩ := n
    exact List.sublist_cons_self _ _
  refine ⟨ps, hsub.trans haddresses, fun p => ?_, ?_⟩
  · rw [hmem, isComponentAddress_iff]
  · exact hshows.imp fun p l h => shows_iff.mpr (.inr h)

end DesignMarkup
