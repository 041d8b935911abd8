import DesignMarkup.Design
import Mathlib.Data.List.Forall2

/-!
# `Proofs.Design.Addresses` — where a node stands in a design

Equal nodes can stand in several places of a design, so what is said of the nodes of a design one by one is
said of their addresses. An address is the list of the positions among the children that leads from the root
down to the node. In lexicographic order an address comes before all addresses below it and before the
addresses right of it, and this is the order in which a walk meets the nodes.

## Contents

* `Address`, `Node.at?`, `Node.Shows`: addresses, and what stands there;
* `Node.addresses`, `mem_addresses_iff`: the addresses of a design;
* `pairwise_addresses`: **they are listed in order**, each once;
* `shows_walk`: **the walk meets the nodes in this order**.
-/

namespace DesignMarkup

/-- An address in a design: positions among the children, from the root down. -/
abbrev Address :=
  List Nat

namespace Node

/-- The node at an address, if there is one. -/
def at? : Node → Address → Option Node
  | n, [] => some n
  | n, i :: p => n.children[i]?.bind fun c => c.at? p

/-- What stands at an address shows the layer. -/
def Shows (n : Node) (p : Address) (l : Layer) : Prop :=
  (n.at? p).map layer = some l

mutual

/-- The addresses of a design, parents before children. -/
def addresses : Node → List Address
  | .node _ children => [] :: addressesFrom 0 children

/-- The addresses in nodes that are children in a row from position `i` on. -/
def addressesFrom (i : Nat) : List Node → List Address
  | [] => []
  | n :: rest => n.addresses.map (i :: ·) ++ addressesFrom (i + 1) rest

end

/-- The address leads into one of the nodes, which are children in a row from position `i` on, and what is
left of it stands in the relation to that node. -/
def LeadsInto (i : Nat) (ns : List Node) (r : Node → Address → Prop) (p : Address) : Prop :=
  ∃ k c q, p = (i + k) :: q ∧ ns[k]? = some c ∧ r c q

section Into

variable {i : Nat} {ns : List Node} {r : Node → Address → Prop} {p : Address}

theorem not_leadsInto_nil : ¬LeadsInto i [] r p := by
  rintro ⟨k, c, q, -, hc, -⟩
  cases hc

/-- An address leads into the first of the nodes or into one of the others. -/
theorem leadsInto_cons_iff {n : Node} :
    LeadsInto i (n :: ns) r p ↔ (∃ q, p = i :: q ∧ r n q) ∨ LeadsInto (i + 1) ns r p := by
  constructor
  · rintro ⟨k, c, q, rfl, hc, hr⟩
    cases k with
    | zero =>
      obtain rfl := Option.some.inj hc
      exact .inl ⟨q, rfl, hr⟩
    | succ k => exact .inr ⟨k, c, q, by rw [Nat.add_right_comm, Nat.add_assoc], hc, hr⟩
  · rintro (⟨q, rfl, hr⟩ | ⟨k, c, q, rfl, hc, hr⟩)
    · exact ⟨0, n, q, rfl, rfl, hr⟩
    · exact ⟨k + 1, c, q, by rw [Nat.add_right_comm, Nat.add_assoc], hc, hr⟩

theorem cons_leadsInto_iff {q : Address} :
    LeadsInto 0 ns r (i :: q) ↔ ∃ c, ns[i]? = some c ∧ r c q := by
  constructor
  · rintro ⟨k, c, q', hp, hc, hr⟩
    obtain ⟨rfl, rfl⟩ := List.cons.inj hp
    rw [Nat.zero_add]
    exact ⟨c, hc, hr⟩
  · rintro ⟨c, hc, hr⟩
    exact ⟨i, c, q, by rw [Nat.zero_add], hc, hr⟩

end Into

/-! ## What stands at an address -/

/-- A node stands at the address of the root, or below one of the children. -/
theorem isSome_at?_iff {n : Node} {p : Address} :
    (n.at? p).isSome ↔ p = [] ∨ LeadsInto 0 n.children (fun c q => (c.at? q).isSome) p := by
  cases p with
  | nil => exact iff_of_true rfl (.inl rfl)
  | cons i q =>
    rw [or_iff_right (List.cons_ne_nil i q), cons_leadsInto_iff, at?, Option.isSome_bind]
    cases n.children[i]? <;> simp

/-- A layer is shown at the address of the root, or below one of the children. -/
theorem shows_iff {n : Node} {p : Address} {l : Layer} :
    n.Shows p l ↔ (p = [] ∧ n.layer = l) ∨ LeadsInto 0 n.children (fun c q => c.Shows q l) p := by
  cases p with
  | nil =>
    have hnone : ¬LeadsInto 0 n.children (fun c q => c.Shows q l) [] := by
      rintro ⟨k, c, q, hp, -⟩
      cases hp
    rw [or_iff_left hnone, Shows, at?, Option.map_some, Option.some_inj]
    exact (and_iff_right rfl).symm
  | cons i q =>
    rw [or_iff_right fun h => List.cons_ne_nil i q h.1, cons_leadsInto_iff, Shows, at?]
    cases n.children[i]? <;> simp [Shows]

/-! ## The addresses of a design -/

mutual

/-- **The addresses of a design** are those where a node stands. -/
theorem mem_addresses_iff (n : Node) (p : Address) : p ∈ n.addresses ↔ (n.at? p).isSome := by
  match n with
  | .node l children =>
    rw [addresses, List.mem_cons, mem_addressesFrom_iff 0 children, isSome_at?_iff]
    rfl

theorem mem_addressesFrom_iff (i : Nat) (ns : List Node) (p : Address) :
    p ∈ addressesFrom i ns ↔ LeadsInto i ns (fun c q => (c.at? q).isSome) p := by
  match ns with
  | [] => exact iff_of_false List.not_mem_nil not_leadsInto_nil
  | n :: rest =>
    rw [addressesFrom, List.mem_append, List.mem_map, mem_addressesFrom_iff (i + 1) rest, leadsInto_cons_iff]
    refine or_congr_left (exists_congr fun q => ?_)
    rw [mem_addresses_iff n q, and_comm, eq_comm]

end

mutual

/-- **Addresses are listed in order**: each before those below it, and before those right of it. -/
theorem pairwise_addresses (n : Node) : n.addresses.Pairwise (· < ·) := by
  match n with
  | .node l children =>
    rw [addresses, List.pairwise_cons]
    refine ⟨fun p hp => ?_, pairwise_addressesFrom 0 children⟩
    obtain ⟨k, c, q, rfl, -⟩ := (mem_addressesFrom_iff 0 children p).mp hp
    exact List.nil_lt_cons _ _

theorem pairwise_addressesFrom (i : Nat) (ns : List Node) : (addressesFrom i ns).Pairwise (· < ·) := by
  match ns with
  | [] => exact .nil
  | n :: rest =>
    rw [addressesFrom, List.pairwise_append]
    refine ⟨?_, pairwise_addressesFrom (i + 1) rest, fun p hp q hq => ?_⟩
    · exact List.pairwise_map.mpr
        ((pairwise_addresses n).imp fun h => List.cons_lt_cons_iff.mpr (.inr ⟨rfl, h⟩))
    · -- all addresses in the first node come before those in the others
      obtain ⟨p, -, rfl⟩ := List.mem_map.mp hp
      obtain ⟨k, c, q, rfl, -⟩ := (mem_addressesFrom_iff (i + 1) rest q).mp hq
      exact List.cons_lt_cons_iff.mpr (.inl (by omega))

end

mutual

/-- **The walk meets the nodes in the order of their addresses.** -/
theorem shows_walk (n : Node) : List.Forall₂ n.Shows n.addresses n.walk := by
  match n with
  | .node l children =>
    rw [addresses, walk]
    exact .cons rfl ((shows_walkAll 0 children).imp fun p m h => shows_iff.mpr (.inr h))

theorem shows_walkAll (i : Nat) (ns : List Node) :
    List.Forall₂ (fun p l => LeadsInto i ns (fun c q => c.Shows q l) p) (addressesFrom i ns)
      (walkAll ns) := by
  match ns with
  | [] => exact .nil
  | n :: rest =>
    rw [addressesFrom, walkAll]
    refine List.rel_append (List.forall₂_map_left_iff.mpr ?_) ?_
    · exact (shows_walk n).imp fun q l h => leadsInto_cons_iff.mpr (.inl ⟨q, rfl, h⟩)
    · exact (shows_walkAll (i + 1) rest).imp fun p l h => leadsInto_cons_iff.mpr (.inr h)

end

end Node

end DesignMarkup
