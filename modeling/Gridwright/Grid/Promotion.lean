import Gridwright.Grid.Basic

/-!
# Stand-ins for parents and zones that were never created

When the grid is finished, every placeholder that is left becomes a proxy: an
object that is no real room and exists because something needs it as a parent or
zone.  A label that is pending in both tables becomes one proxy, listed among the
parents, with the code of both.
-/

namespace Gridwright

/-- The labels that became proxies, by the table they came from. -/
structure Promotion where
  parents : List Label := []
  zones : List Label := []
deriving DecidableEq

def Promotion.isEmpty (promotion : Promotion) : Bool :=
  promotion.parents.isEmpty && promotion.zones.isEmpty

namespace Grid

def leftover (table : PendingTable) : List Placeholder :=
  table.values.filterMap (·.placeholder?)

/-- The proxy for a placeholder, with all the code collected for its label. -/
def proxyOf (grid : Grid) (placeholder : Placeholder) : Room :=
  { label := placeholder.label
    kind := .proxy
    attrBase := placeholder.attrBase
    buffer := grid.pendingBuffer placeholder.label }

/-- Turns one placeholder into a proxy, unless its label is a room, and notes the
label if it does. -/
def promoteOne (state : Grid × List Label) (placeholder : Placeholder) : Grid × List Label :=
  let (grid, promoted) := state
  let resolved := grid.resolvePending placeholder.label
  match resolved.addRoom? (grid.proxyOf placeholder) with
  | some wider => (wider, promoted ++ [placeholder.label])
  | none => (resolved, promoted)

/-- Turns the placeholders of one table into proxies. -/
def promoteSlot (grid : Grid) (slot : Slot) : Grid × List Label :=
  (leftover (grid.pending slot)).foldl promoteOne (grid, [])

/-- Turns all placeholders into proxies, those of parents first. -/
def promote (grid : Grid) : Grid × Promotion :=
  let (withParents, parents) := grid.promoteSlot .parent
  let (withZones, zones) := withParents.promoteSlot .zone
  (withZones, { parents, zones })

end Grid

end Gridwright
