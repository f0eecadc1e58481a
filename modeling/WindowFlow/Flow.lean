import WindowFlow.Facet.Basic
import WindowFlow.Forest.Edit
/-!
Dataflows: forests of window nodes, run from the root of a path to its end. A flow comes about by a
run of commands from the empty flow, and a command that fails leaves the flow that it stopped at.
-/
namespace WindowFlow

abbrev Flow := Forest Node

namespace Flow

/-- The live nodes with a given hash, in ascending order. -/
def withHash (g : Flow) (hash : String) : List NodeId :=
  g.ids.filter fun id => (g.node? id).any (·.hash = hash)

/-- The runtime steps from the root down to a node. -/
def assemblePath (g : Flow) (id : NodeId) : Except ForestError (List Assembled) :=
  List.map Node.assemble <$> g.nodesOnPath id

/-- The fields that are there once every step down to a node has run. -/
def producedUpTo (g : Flow) (id : NodeId) : Except ForestError FieldSet :=
  List.foldl (fun fields n => fields ∪ n.producedFields) ∅ <$> g.nodesOnPath id

/-- Adds the windows that a facet implies as a chain below `parent`, and gives the last of them. -/
def insertFacet (parent : Option NodeId) (facet : Facet) : Edit Node (Option NodeId) :=
  Edit.insertChain parent facet.windows

inductive Command where
  | insert (parent : Option NodeId) (node : Node)
  | move (id : NodeId) (parent : Option NodeId)
  | remove (id : NodeId)
  | duplicate (id : NodeId)
  | insertFacet (parent : Option NodeId) (facet : Facet)

/-- The flow that a command stops at, whether or not it succeeds. -/
def after (g : Flow) : Command → Flow
  | .insert parent node => (Edit.insert parent node).stop g
  | .move id parent => (Edit.move id parent).stop g
  | .remove id => (Edit.remove id : Edit Node Node).stop g
  | .duplicate id => (Edit.duplicate id : Edit Node NodeId).stop g
  | .insertFacet parent facet => (insertFacet parent facet).stop g

def run (commands : List Command) : Flow := commands.foldl after .empty

def Reachable (g : Flow) : Prop := ∃ commands, run commands = g

end Flow

end WindowFlow
