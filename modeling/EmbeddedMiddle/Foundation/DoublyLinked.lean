import Mathlib.Logic.Function.Basic
import Mathlib.Data.List.Nodup

/-!
# Doubly linked lists

A list of nodes whose two links, `next` and `back`, lead from each node to its
neighbours.  `Segment` is a part of such a list between two given neighbours;
reversing it exchanges the links.
-/

namespace Foundation

universe u

variable {Node : Type u}

/-- The nodes are linked in both directions; `before` and `after` are what the
outer links hold. -/
def Segment (next back : Node → Option Node) :
    Option Node → List Node → Option Node → Prop
  | _, [], _ => True
  | before, node :: nodes, after =>
      back node = before ∧ next node = nodes.head?.or after ∧
        Segment next back (some node) nodes after

/-- The node reached from `start` after some links. -/
def follow (link : Node → Option Node) (start : Option Node) :
    ℕ → Option Node
  | 0 => start
  | steps + 1 => (follow link start steps).bind link

/-- One link is changed, if there is a node it belongs to. -/
def redirect [DecidableEq Node] (link : Node → Option Node) :
    Option Node → Option Node → Node → Option Node
  | none, _ => link
  | some target, value => Function.update link target value

namespace Segment

variable {next back next' back' : Node → Option Node}
  {before after : Option Node} {nodes front rear : List Node} {node : Node}

theorem congr (segment : Segment next back before nodes after)
    (sameNext : ∀ node ∈ nodes, next' node = next node)
    (sameBack : ∀ node ∈ nodes, back' node = back node) :
    Segment next' back' before nodes after := by
  induction nodes generalizing before with
  | nil => trivial
  | cons node nodes induction =>
      obtain ⟨backEq, nextEq, rest⟩ := segment
      refine ⟨?_, ?_, ?_⟩
      · rw [sameBack node (List.mem_cons_self ..), backEq]
      · rw [sameNext node (List.mem_cons_self ..), nextEq]
      · exact induction rest
          (fun other among => sameNext other (List.mem_cons_of_mem _ among))
          (fun other among => sameBack other (List.mem_cons_of_mem _ among))

theorem append_iff :
    Segment next back before (front ++ rear) after ↔
      Segment next back before front (rear.head?.or after) ∧
        Segment next back (front.getLast?.or before) rear after := by
  induction front generalizing before with
  | nil => simp [Segment]
  | cons node front induction =>
      have last : (node :: front).getLast?.or before =
          front.getLast?.or (some node) := by
        rw [List.getLast?_cons]
        cases front.getLast? <;> rfl
      rw [List.cons_append, Segment, Segment, induction, last,
        List.head?_append, Option.or_assoc]
      simp only [and_assoc]

/-- The links of a node in the middle. -/
theorem links
    (segment : Segment next back before (front ++ node :: rear) after) :
    back node = front.getLast?.or before ∧
      next node = rear.head?.or after :=
  have split := (append_iff.mp segment).2
  ⟨split.1, split.2.1⟩

theorem reverse_iff :
    Segment back next after nodes.reverse before ↔
      Segment next back before nodes after := by
  induction nodes generalizing before with
  | nil => exact Iff.rfl
  | cons node nodes induction =>
      rw [List.reverse_cons, append_iff, List.getLast?_reverse]
      change Segment back next after nodes.reverse (some node) ∧
        (next node = nodes.head?.or after ∧ back node = before ∧ True) ↔ _
      rw [induction, Segment]
      tauto

/-! ## The ends -/

/-- Without a node the list starts with the next one, if nothing was before. -/
theorem head?_without :
    (front ++ rear).head? =
      if front.getLast? = none then rear.head?
      else (front ++ node :: rear).head? := by
  cases front <;> simp

theorem getLast?_without :
    (front ++ rear).getLast? =
      if rear.head? = none then front.getLast?
      else (front ++ node :: rear).getLast? := by
  cases rear <;> simp [List.getLast?_cons]

/-! ## Walking along the links -/

theorem next_getElem?
    (segment : Segment next back before nodes none) {index : ℕ}
    (found : nodes[index]? = some node) : next node = nodes[index + 1]? := by
  induction nodes generalizing before index with
  | nil => cases found
  | cons first nodes induction =>
      obtain ⟨-, nextEq, rest⟩ := segment
      cases index with
      | zero =>
          obtain rfl := Option.some.inj found
          rw [nextEq, Option.or_none, List.head?_eq_getElem?]
          rfl
      | succ index => exact induction rest found

theorem follow_next (segment : Segment next back before nodes none)
    (steps : ℕ) : follow next nodes.head? steps = nodes[steps]? := by
  induction steps with
  | zero => exact List.head?_eq_getElem?
  | succ steps induction =>
      rw [follow, induction]
      cases found : nodes[steps]? with
      | none =>
          rw [List.getElem?_eq_none_iff] at found
          exact (List.getElem?_eq_none (by omega)).symm
      | some node => exact segment.next_getElem? found

theorem follow_back (segment : Segment next back none nodes after)
    (steps : ℕ) :
    follow back nodes.getLast? steps = nodes.reverse[steps]? := by
  rw [← List.head?_reverse]
  exact (reverse_iff.mpr segment).follow_next steps

/-! ## Changing links -/

section Redirect

variable [DecidableEq Node]

theorem redirect_of_not_mem {link : Node → Option Node}
    {target value : Option Node} (other : ∀ node' ∈ target, node ≠ node') :
    redirect link target value node = link node := by
  cases target with
  | none => rfl
  | some node' => exact Function.update_of_ne (other node' rfl) ..

theorem redirect_head (value : Option Node) (nodup : nodes.Nodup)
    (segment : Segment next back before nodes after) :
    Segment next (redirect back nodes.head? value) value nodes after := by
  cases nodes with
  | nil => trivial
  | cons node nodes =>
      obtain ⟨-, nextEq, rest⟩ := segment
      refine ⟨Function.update_self .., nextEq, rest.congr (fun _ _ => rfl) ?_⟩
      intro other among
      refine redirect_of_not_mem ?_
      intro head isHead same
      obtain rfl := Option.some.inj isHead
      exact (List.nodup_cons.mp nodup).1 (same ▸ among)

theorem redirect_last (value : Option Node) (nodup : nodes.Nodup)
    (segment : Segment next back before nodes after) :
    Segment (redirect next nodes.getLast? value) back before nodes value := by
  rw [← reverse_iff, ← List.head?_reverse]
  exact redirect_head value (List.nodup_reverse.mpr nodup)
    (reverse_iff.mpr segment)

/-- The neighbours of a node are linked to each other. -/
theorem unlink (nodup : (front ++ node :: rear).Nodup)
    (segment : Segment next back none (front ++ node :: rear) none) :
    Segment (redirect next front.getLast? rear.head?)
      (redirect back rear.head? front.getLast?) none (front ++ rear) none := by
  obtain ⟨frontNodup, tailNodup, apart⟩ := List.nodup_append.mp nodup
  have rearNodup := (List.nodup_cons.mp tailNodup).2
  obtain ⟨frontSegment, -, -, rearSegment⟩ := append_iff.mp segment
  rw [append_iff, Option.or_none, Option.or_none]
  constructor
  · refine (frontSegment.redirect_last _ frontNodup).congr (fun _ _ => rfl) ?_
    intro other among
    refine redirect_of_not_mem ?_
    intro head isHead
    exact apart other among head
      (List.mem_cons_of_mem _ (List.mem_of_head? isHead))
  · refine (rearSegment.redirect_head _ rearNodup).congr ?_ (fun _ _ => rfl)
    intro other among
    refine redirect_of_not_mem ?_
    intro last isLast same
    exact apart last (List.mem_of_getLast? isLast) other
      (List.mem_cons_of_mem _ among) same.symm

/-- A new node is linked behind the last one. -/
theorem link_last (nodup : nodes.Nodup) (new : node ∉ nodes)
    (segment : Segment next back none nodes none) :
    Segment
      (redirect (Function.update next node none) nodes.getLast? (some node))
      (Function.update back node nodes.getLast?) none (nodes ++ [node])
      none := by
  have apart : ∀ other ∈ nodes, other ≠ node := by
    rintro other among rfl
    exact new among
  rw [append_iff, Option.or_none, Option.or_none]
  refine ⟨?_, Function.update_self .., ?_, trivial⟩
  · have kept : Segment (Function.update next node none)
        (Function.update back node nodes.getLast?) none nodes none :=
      segment.congr
        (fun other among => Function.update_of_ne (apart other among) ..)
        (fun other among => Function.update_of_ne (apart other among) ..)
    exact kept.redirect_last _ nodup
  · rw [redirect_of_not_mem]
    · exact Function.update_self ..
    · rintro last isLast rfl
      exact new (List.mem_of_getLast? isLast)

end Redirect

end Segment

end Foundation
