import EntityFoundry.Journal
import EntityFoundry.Proofs.Schema.Unlisted
import Mathlib.Algebra.Ring.Nat
/-! Children that a schema cannot hold. Finalizing goes through a tree in post-order and compares the
children of each node with those that were written: the standard schema writes them all, the flat
schema none. So the warnings account for every entity that is lost, the root alone being kept. -/
namespace EntityFoundry

namespace Tree

mutual

def postorder : Tree → List Tree
  | .node b ts => forestPostorder ts ++ [.node b ts]

def forestPostorder : List Tree → List Tree
  | [] => []
  | t :: ts => t.postorder ++ forestPostorder ts

end

theorem childrenCounted (t : Tree) :
    (t.postorder.map (·.children.length)).sum + 1 = t.nodeCount := by
  induction t using byNodes with
  | node b ts ih =>
    have forest : ((forestPostorder ts).map (·.children.length)).sum + ts.length =
        forestCount ts := by
      induction ts with
      | nil => rfl
      | cons t ts ihs =>
        have first := ih t (by simp)
        have others := ihs fun u member => ih u (by simp [member])
        rw [forestPostorder, forestCount, List.map_append, List.sum_append, List.length_cons]
        omega
    rw [postorder, nodeCount, List.map_append, List.sum_append, List.map_singleton,
      List.sum_singleton, children]
    omega

end Tree

theorem Blueprint.tablesOfListed {types : TypeIndex} {b : Blueprint}
    (listed : ∀ r ∈ b, r.tag ∈ types.tags) : ∃ cs, Schema.componentTables types b = .ok cs := by
  have none : unlisted? types b = none := by
    unfold unlisted?
    rw [Option.map_eq_none_iff, List.find?_eq_none]
    exact fun r member => by simpa using listed r member
  have ends := Blueprint.endOfTables types b
  rw [none] at ends
  cases made : Schema.componentTables types b with
  | ok cs => exact ⟨cs, rfl⟩
  | error e =>
    rw [made] at ends
    cases ends

namespace Schema
variable (schema : Schema) (types : TypeIndex)

def written : Schema → Nat → Nat
  | .standard, n => n
  | .flat, _ => 0

theorem childrenWritten (cs : List ComponentTable) (us : List EntityTable) :
    (schema.tableOf cs us).children.length = schema.written us.length := by
  cases schema <;> rfl

def warningsAt (t : Tree) : List Warning :=
  dropWarning t.children.length (schema.written t.children.length)

theorem tablesOfListed {ts : List Tree}
    (each : ∀ t ∈ ts, ∃ u,
      schema.tableOfTree types t = (.ok u, t.postorder.flatMap schema.warningsAt)) :
    ∃ us, schema.tablesOfForest types ts =
        (.ok us, (Tree.forestPostorder ts).flatMap schema.warningsAt) ∧
      us.length = ts.length := by
  induction ts with
  | nil => exact ⟨[], rfl, rfl⟩
  | cons t ts ih =>
    obtain ⟨⟨u, first⟩, later⟩ := List.forall_mem_cons.mp each
    obtain ⟨us, others, length⟩ := ih later
    refine ⟨u :: us, ?_, by simp [length]⟩
    rw [tablesOfForest, first, others, Tree.forestPostorder, List.flatMap_append]

theorem tableOfListed {t : Tree} (listed : t.Listed types.tags) :
    ∃ u, schema.tableOfTree types t = (.ok u, t.postorder.flatMap schema.warningsAt) := by
  induction t using Tree.byNodes with
  | node b ts ih =>
    obtain ⟨tags, below⟩ := listed
    obtain ⟨cs, made⟩ := Blueprint.tablesOfListed tags
    obtain ⟨us, forest, length⟩ := tablesOfListed schema types fun t member =>
      ih t member (below t member)
    have here : schema.warningsAt (.node b ts) =
        dropWarning us.length (schema.tableOf cs us).children.length := by
      rw [childrenWritten, length]
      rfl
    refine ⟨schema.tableOf cs us, ?_⟩
    rw [tableOfTree, made, forest, Tree.postorder, List.flatMap_append, List.flatMap_singleton,
      here]

theorem finalizeListed {t : Tree} (listed : t.Listed types.tags) :
    ∃ bytes, schema.finalizeTree types t = (.ok bytes, t.postorder.flatMap schema.warningsAt) := by
  obtain ⟨u, made⟩ := tableOfListed schema types listed
  exact ⟨schema.encode u, by simp only [finalizeTree, made]; rfl⟩

theorem standardQuiet (ts : List Tree) : ts.flatMap standard.warningsAt = [] :=
  List.flatMap_eq_nil_iff.mpr fun _ _ => if_pos rfl

theorem flatWarnings (ts : List Tree) :
    ts.flatMap flat.warningsAt =
      (ts.filter fun t => !t.children.isEmpty).map fun t =>
        .childrenDropped t.children.length 0 := by
  induction ts with
  | nil => rfl
  | cons t ts ih =>
    obtain ⟨b, us⟩ := t
    rw [List.flatMap_cons, ih]
    cases us <;> rfl

def Warning.expected : Warning → Nat
  | .childrenDropped expected _ => expected
  | .unknownIndex _ | .withoutData _ => 0

theorem expectedTotal (ts : List Tree) :
    ((ts.flatMap flat.warningsAt).map Warning.expected).sum =
      (ts.map (·.children.length)).sum := by
  induction ts with
  | nil => rfl
  | cons t ts ih =>
    obtain ⟨b, us⟩ := t
    rw [List.flatMap_cons, List.map_append, List.sum_append, ih]
    cases us <;> rfl

theorem droppedChildrenWarned (types : TypeIndex) (t : Tree) (listed : t.Listed types.tags) :
    (∃ bytes, standard.finalizeTree types t = (.ok bytes, [])) ∧
    ∃ bytes ws, flat.finalizeTree types t = (.ok bytes, ws) ∧
      (ws = (t.postorder.filter fun s => !s.children.isEmpty).map fun s =>
        .childrenDropped s.children.length 0) ∧
      (∀ w ∈ ws, (Notice.schema w).level = .warn ∧ (Notice.schema w).message =
        "schema has no children field; child entities were not written") ∧
      (ws.map Warning.expected).sum = t.nodeCount - 1 := by
  obtain ⟨whole, complete⟩ := finalizeListed standard types listed
  obtain ⟨bytes, finalized⟩ := finalizeListed flat types listed
  rw [standardQuiet] at complete
  refine ⟨⟨whole, complete⟩, bytes, _, finalized, flatWarnings _, fun w member => ?_, ?_⟩
  · rw [flatWarnings] at member
    obtain ⟨s, -, rfl⟩ := List.mem_map.mp member
    exact ⟨rfl, rfl⟩
  · rw [expectedTotal, ← t.childrenCounted, Nat.add_sub_cancel]

theorem grandchildrenWarned :
    let types : TypeIndex := { tags := [⟨7⟩] }
    let t : Tree := .node [] [.node [⟨⟨7⟩, .owned [1]⟩] [.leaf [], .leaf []], .leaf [],
      .node [] [.leaf [⟨⟨7⟩, .owned []⟩]]]
    t.Listed types.tags ∧ (standard.finalizeTree types t).2 = [] ∧
      (flat.finalizeTree types t).2 =
        [.childrenDropped 2 0, .childrenDropped 1 0, .childrenDropped 3 0] ∧
      t.nodeCount - 1 = 2 + 1 + 3 := by
  intro types t
  have listed : t.Listed types.tags := by
    refine .node (by decide) (List.forall_mem_cons.mpr ⟨.node (by decide) ?_, ?_⟩)
    · exact List.forall_mem_cons.mpr
        ⟨.ofLeaf (by decide), List.forall_mem_singleton.mpr (.ofLeaf (by decide))⟩
    · refine List.forall_mem_cons.mpr ⟨.ofLeaf (by decide), List.forall_mem_singleton.mpr ?_⟩
      exact .node (by decide) (List.forall_mem_singleton.mpr (.ofLeaf (by decide)))
  obtain ⟨⟨whole, complete⟩, bytes, ws, finalized, warned, -, total⟩ :=
    droppedChildrenWarned types t listed
  refine ⟨listed, congrArg Prod.snd complete, (congrArg Prod.snd finalized).trans warned, ?_⟩
  rw [← total, warned]
  rfl

end Schema
end EntityFoundry
