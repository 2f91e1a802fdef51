import KernelHost.Manifest.Field
import Mathlib.Data.List.Forall2

/-!
# Elements elsewhere

When a part of a text goes, everything behind it moves.  Two elements are alike if they differ in
their places only, and in the places of what is inside them.
-/

namespace KernelHost.Xml

mutual

/-- An element without its place. -/
def Element.placeless : Element → Element
  | .mk name attributes children _ _ => .mk name attributes (placelessNodes children) 0 0

def Node.placeless : Node → Node
  | .element e => .element e.placeless
  | .text data => .text data
  | .aside => .aside

def placelessNodes : List Node → List Node
  | [] => []
  | node :: nodes => node.placeless :: placelessNodes nodes

end

/-- Two elements are the same but for their places. -/
def Element.Alike (e e' : Element) : Prop :=
  e.placeless = e'.placeless

namespace Element

variable {e e' : Element}

theorem children_placeless (e : Element) :
    e.placeless.children = placelessNodes e.children := by
  cases e
  rfl

/-- The text that the content begins with is the same if the content is, but for places. -/
theorem text?_eq_of_children
    (same : placelessNodes e.children = placelessNodes e'.children) : e.text? = e'.text? := by
  have leading : e.leadingText? = e'.leadingText? := by
    obtain ⟨_, _, nodes, _, _⟩ := e
    obtain ⟨_, _, nodes', _, _⟩ := e'
    rcases nodes with _ | ⟨_ | _ | _, _⟩ <;> rcases nodes' with _ | ⟨_ | _ | _, _⟩ <;>
      simp_all [leadingText?, Element.children, placelessNodes, Node.placeless]
  rw [text?, text?, leading]

theorem elements_placeless (e : Element) : e.placeless.elements = e.elements.map placeless := by
  rw [elements, elements, children_placeless]
  induction e.children with
  | nil => rfl
  | cons node nodes ih =>
      cases node <;> simp [placelessNodes, Node.placeless, ih]

namespace Alike

variable (alike : Alike e e')

include alike

theorem name : e'.name = e.name := by
  cases e
  cases e'
  exact (Element.mk.inj alike).1.symm

theorem attributes : e'.attributes = e.attributes := by
  cases e
  cases e'
  exact (Element.mk.inj alike).2.1.symm

theorem attribute? : e'.attribute? = e.attribute? := by
  funext name
  rw [Element.attribute?, Element.attribute?, alike.attributes]

theorem children : placelessNodes e.children = placelessNodes e'.children := by
  rw [← children_placeless, ← children_placeless, show e.placeless = e'.placeless from alike]

theorem text? : e'.text? = e.text? :=
  (text?_eq_of_children alike.children).symm

theorem elements : List.Forall₂ Alike e.elements e'.elements := by
  have same : e.elements.map placeless = e'.elements.map placeless := by
    rw [← elements_placeless, ← elements_placeless, show e.placeless = e'.placeless from alike]
  rw [← List.forall₂_eq_eq_eq, List.forall₂_map_left_iff, List.forall₂_map_right_iff] at same
  exact same

end Alike

end Element

/-! ## Equality of trees -/

mutual

def Element.same : Element → Element → Bool
  | .mk name attributes children start stop, .mk name' attributes' children' start' stop' =>
    name == name' && attributes == attributes' && sameNodes children children' &&
      start == start' && stop == stop'

def Node.same : Node → Node → Bool
  | .element e, .element e' => e.same e'
  | .text data, .text data' => data == data'
  | .aside, .aside => true
  | _, _ => false

def sameNodes : List Node → List Node → Bool
  | [], [] => true
  | node :: nodes, node' :: nodes' => node.same node' && sameNodes nodes nodes'
  | _, _ => false

end

mutual

theorem Element.same_iff (e e' : Element) : e.same e' ↔ e = e' := by
  match e, e' with
  | .mk name attributes children start stop, .mk name' attributes' children' start' stop' =>
      simp [Element.same, sameNodes_iff children children', and_assoc]

theorem Node.same_iff (node node' : Node) : node.same node' ↔ node = node' := by
  match node, node' with
  | .element e, .element e' => simp [Node.same, Element.same_iff e e']
  | .text _, .text _ => simp [Node.same]
  | .aside, .aside => simp [Node.same]
  | .element _, .text _ | .element _, .aside | .text _, .element _ | .text _, .aside
  | .aside, .element _ | .aside, .text _ => simp [Node.same]

theorem sameNodes_iff (nodes nodes' : List Node) : sameNodes nodes nodes' ↔ nodes = nodes' := by
  match nodes, nodes' with
  | [], [] => simp [sameNodes]
  | [], _ :: _ | _ :: _, [] => simp [sameNodes]
  | node :: nodes, node' :: nodes' =>
      simp [sameNodes, Node.same_iff node node', sameNodes_iff nodes nodes']

end

instance : DecidableEq Element := fun e e' => decidable_of_iff _ (e.same_iff e')

end KernelHost.Xml
