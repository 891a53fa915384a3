import Mathlib.Data.Set.Basic
import Mathlib.Order.Lattice
import CppElevator.Library.Transition

/-!
# Gossip over a semilattice

Nodes know something that only grows, send what they know, and join what they are sent to what they
know. Messages may be lost, doubled, delayed and reordered. What a node knows at some time is a lower
bound for all it sends later, so after an exchange every node knows what each of the others knew
before; nodes that meanwhile learn from each other only know the same.
-/
namespace CppElevator.Library

/-- What the nodes know, and every message sent so far with its sender. -/
structure Gossip (Node Info : Type*) where
  /-- Knowledge of each node. -/
  know : Node → Info
  /-- Messages that may be delivered, oldest first. -/
  sent : List (Node × Info)

/-- A step of a gossip. -/
inductive GossipAction (Node : Type*) where
  /-- A node comes to know more by itself. -/
  | learn (i : Node)
  /-- A node starts again, from whatever it then knows. -/
  | forget (i : Node)
  /-- A node sends what it knows. -/
  | send (i : Node)
  /-- A node joins a message, given by its position among those sent, to what it knows. -/
  | merge (j : Node) (position : Nat)

variable {Node Info : Type*}

namespace Gossip

/-- What every message of a node since a state carries. -/
def Carries (s : Gossip Node Info) (i : Node) (P : Info → Prop) (l : Gossip Node Info) : Prop :=
  ∀ position info, s.sent.length ≤ position → l.sent[position]? = some (i, info) → P info

/-- Nothing has been sent since the state itself. -/
theorem carries_self (s : Gossip Node Info) (i : Node) (P : Info → Prop) : s.Carries i P s := by
  intro position info late sent
  have early := (List.getElem?_eq_some_iff.1 sent).1
  omega

end Gossip

variable [SemilatticeSup Info]

/-- The steps of a gossip. -/
def GossipStep (s : Gossip Node Info) : GossipAction Node → Gossip Node Info → Prop
  | .learn i, s' => s'.sent = s.sent ∧ s.know i ≤ s'.know i ∧ ∀ k, k ≠ i → s'.know k = s.know k
  | .forget i, s' => s'.sent = s.sent ∧ ∀ k, k ≠ i → s'.know k = s.know k
  | .send i, s' => s'.sent = s.sent ++ [(i, s.know i)] ∧ s'.know = s.know
  | .merge j position, s' => s'.sent = s.sent ∧ (∀ k, k ≠ j → s'.know k = s.know k) ∧
    ∃ i info, s.sent[position]? = some (i, info) ∧ s'.know j = s.know j ⊔ info

namespace Gossip

variable {s s' l l' : Gossip Node Info} {action : GossipAction Node} {i j : Node} {live : Set Node}
  {trace : List (Transition (Gossip Node Info) (GossipAction Node))}

/-- Nobody else makes a node forget. -/
theorem know_le_of_step (step : GossipStep s action s') (awake : action ≠ .forget j) :
    s.know j ≤ s'.know j := by
  cases action with
  | learn i =>
    by_cases here : j = i
    · subst here
      exact step.2.1
    · exact (step.2.2 j here).ge
  | forget i =>
    have apart : j ≠ i := fun same => awake (by rw [same])
    exact (step.2 j apart).ge
  | send i => exact (congrFun step.2 j).ge
  | merge k position =>
    obtain ⟨-, others, i, info, -, joined⟩ := step
    by_cases here : j = k
    · subst here
      rw [joined]
      exact le_sup_left
    · exact (others j here).ge

/-- A node sends what it knows. -/
theorem Carries.step {P : Info → Prop} (carries : s.Carries i P l) (step : GossipStep l action l')
    (knows : P (l.know i)) : s.Carries i P l' := by
  intro position info late sent
  cases action with
  | send k =>
    rw [step.1] at sent
    by_cases earlier : position < l.sent.length
    · rw [List.getElem?_append_left earlier] at sent
      exact carries position info late sent
    · rw [List.getElem?_append_right (not_lt.1 earlier), List.getElem?_singleton] at sent
      split_ifs at sent
      obtain ⟨rfl, rfl⟩ := Prod.mk.inj (Option.some.inj sent)
      exact knows
  | learn | forget | merge =>
    rw [step.1] at sent
    exact carries position info late sent

/-- A step joins to what node `j` knows a message that node `i` has sent since a state. -/
def Hears (s : Gossip Node Info) (i j : Node)
    (t : Transition (Gossip Node Info) (GossipAction Node)) : Prop :=
  ∃ position info, t.action = .merge j position ∧ s.sent.length ≤ position ∧
    t.pre.sent[position]? = some (i, info)

/-- What the node then knows. -/
theorem know_of_hears {P : Info → Prop} (carries : s.Carries i P l) (step : GossipStep l action l')
    (hears : s.Hears i j ⟨l, action, l'⟩) : ∃ info, P info ∧ l'.know j = l.know j ⊔ info := by
  obtain ⟨position, info, rfl, late, sent⟩ := hears
  obtain ⟨-, -, k, info', sent', joined⟩ := step
  have same : some (i, info) = some (k, info') := sent.symm.trans sent'
  obtain ⟨rfl, rfl⟩ := Prod.mk.inj (Option.some.inj same)
  exact ⟨info, carries position info late sent, joined⟩

/-- Every live node hears of every other. -/
def Exchanges (live : Set Node) (s : Gossip Node Info)
    (trace : List (Transition (Gossip Node Info) (GossipAction Node))) : Prop :=
  ∀ i ∈ live, ∀ j ∈ live, i ≠ j → ∃ t ∈ trace, s.Hears i j t

/-- No live node forgets. -/
def Awake (live : Set Node) (trace : List (Transition (Gossip Node Info) (GossipAction Node))) :
    Prop :=
  ∀ t ∈ trace, ∀ j ∈ live, t.action ≠ .forget j

/-- After an exchange every live node knows what each of them knew before. -/
theorem told_of_exchange (run : Run GossipStep s trace s') (awake : Awake live trace)
    (exchanges : Exchanges live s trace) (one : i ∈ live) (other : j ∈ live) :
    s.know i ≤ s'.know j := by
  have grows (k : Node) (alive : k ∈ live) : ∀ t ∈ trace, t.pre.know k ≤ t.post.know k :=
    fun t taken => know_le_of_step (run.steps t taken) (awake t taken k alive)
  by_cases same : i = j
  · subst same
    exact run.invariant_of_admitted (fun t => t.pre.know i ≤ t.post.know i)
      (fun l => s.know i ≤ l.know i) (fun _ more known => known.trans more) (grows i one) le_rfl
  · have told : ∀ t ∈ trace, s.Hears i j t → s.know i ≤ t.post.know j := by
      refine run.forall_transitions (fun t => t.pre.know i ≤ t.post.know i)
        (fun t => s.Hears i j t → s.know i ≤ t.post.know j)
        (fun l => s.know i ≤ l.know i ∧ s.Carries i (s.know i ≤ ·) l) ?_ (grows i one)
        ⟨le_rfl, s.carries_self i _⟩
      intro l l' action step more before
      obtain ⟨known, carries⟩ := before
      refine ⟨⟨known.trans more, carries.step step known⟩, fun hears => ?_⟩
      obtain ⟨info, carried, joined⟩ := know_of_hears carries step hears
      change s.know i ≤ l'.know j
      rw [joined]
      exact carried.trans le_sup_right
    obtain ⟨t, taken, hears⟩ := exchanges i one j other same
    exact run.persists (fun l => s.know i ≤ l.know j)
      (fun t taken known => known.trans (grows j other t taken)) taken (told t taken hears)

/-- Live nodes come to know more from what live nodes have sent since a state, and in no other way. -/
def Settles (live : Set Node) (s : Gossip Node Info)
    (t : Transition (Gossip Node Info) (GossipAction Node)) : Prop :=
  ∀ j ∈ live, t.post.know j = t.pre.know j ∨ ∃ i ∈ live, s.Hears i j t

/-- Then none of them knows more than all of them did before. -/
theorem bounded_of_settles (run : Run GossipStep s trace s')
    (settles : ∀ t ∈ trace, Settles live s t) {bound : Info} (start : ∀ i ∈ live, s.know i ≤ bound) :
    ∀ i ∈ live, s'.know i ≤ bound := by
  have reached := run.invariant_of_admitted (Settles live s)
    (fun l => (∀ i ∈ live, l.know i ≤ bound) ∧ ∀ i ∈ live, s.Carries i (· ≤ bound) l) ?_ settles
    ⟨start, fun i _ => s.carries_self i _⟩
  · exact reached.1
  · intro l l' action step settled before
    obtain ⟨below, carries⟩ := before
    refine ⟨fun j alive => ?_, fun i alive => (carries i alive).step step (below i alive)⟩
    rcases settled j alive with kept | ⟨i, other, hears⟩
    · exact (Eq.le kept).trans (below j alive)
    · obtain ⟨info, carried, joined⟩ := know_of_hears (carries i other) step hears
      rw [joined]
      exact sup_le (below j alive) carried

/-- Live nodes that settle while they exchange messages know the same. -/
theorem agree_of_exchange (run : Run GossipStep s trace s') (awake : Awake live trace)
    (exchanges : Exchanges live s trace) (settles : ∀ t ∈ trace, Settles live s t) (one : i ∈ live)
    (other : j ∈ live) : s'.know i = s'.know j := by
  have least (i j : Node) (one : i ∈ live) (other : j ∈ live) : s'.know i ≤ s'.know j :=
    bounded_of_settles run settles
      (fun _ alive => told_of_exchange run awake exchanges alive other) i one
  exact le_antisymm (least i j one other) (least j i other one)

end Gossip

end CppElevator.Library
