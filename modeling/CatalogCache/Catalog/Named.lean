import CatalogCache.Failure

/-! # Catalogs by name -/

namespace CatalogCache.Catalog

/-- The catalog with a name. -/
def named (name : Value) : Except Failure Catalog :=
  match name with
  | .text t => match ofName? t with
    | some c => .ok c
    | none => .error (.noSuchCatalog name)
  | _ => .error (.noSuchCatalog name)

/-- The catalog that a value stands for: a catalog itself, or the name of its file. -/
def ofValue (v : Value) : Except Failure Catalog :=
  match v with
  | .catalog c => .ok c
  | .text t => match ofFileName? t with
    | some c => .ok c
    | none => .error (.notACatalog v)
  | _ => .error (.notACatalog v)

end CatalogCache.Catalog
