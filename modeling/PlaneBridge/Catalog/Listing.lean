import PlaneBridge.Shape.Basic

/-!
# Listings

The envelope in which lists travel in both directions.
-/

namespace PlaneBridge.Catalog

structure Listing (α : Type) where
  list : List α := []
  deriving DecidableEq, Repr

def Listing.shape {α : Type} (item : Shape α) : Shape (Listing α) :=
  .record (.cons "list" (.list item) .nil)
    {}
    (fun l => (l.list, ()))
    (fun (list, ()) => { list })
    (fun _ => rfl) (fun _ => rfl)

end PlaneBridge.Catalog
