import CatalogCache.Proofs.Outlines
import CatalogCache.Proofs.Schemas

/-!
# Encoding for any classes

What the codec writes for values of any family of classes. For the classes of the catalogs this is
what `Codec.encode` writes.
-/

namespace CatalogCache

variable {C : Type}

/-! ## Writing -/

namespace ValueOf

mutual

def outline (S : Schema C) (depth : Nat) : ValueOf C → Except OutlineError Draft
  | plain v => v.outline depth
  | list items =>
    if depth = 0 then .error .depth
    else do
      let drafts ← outlineItems S (depth - 1) items
      return (Draft.items drafts).map .list
  | record cls fields =>
    if depth = 0 then .error .depth
    else do
      let drafts ← outlineItems S (depth - 1) fields
      let keys := (S cls).map (·.key)
      return (Draft.members (Ordered.ofList (keys.zip drafts))).map .object

def outlineItems (S : Schema C) (depth : Nat) :
    List (ValueOf C) → Except OutlineError (List Draft)
  | [] => .ok []
  | item :: rest => do
    let draft ← outline S depth item
    let more ← outlineItems S depth rest
    return draft :: more

end

end ValueOf

/-! ## What is written for the parts -/

namespace ValueOf

variable {S : Schema C} {depth : Nat} {v : ValueOf C} {j : Json}

/-- The document is written for the value, `depth` containers deep at most. -/
def WrittenAs (S : Schema C) (depth : Nat) (v : ValueOf C) (j : Json) : Prop :=
  v.outline S depth = .ok (.ok j)

theorem outlineItems_eq (S : Schema C) (depth : Nat) (vs : List (ValueOf C)) :
    outlineItems S depth vs = vs.mapM (outline S depth) := by
  induction vs with
  | nil => rfl
  | cons v vs ih => rw [outlineItems, ih, List.mapM_cons]

/-- The reals in the value are numbers of the format. -/
inductive IsValid : ValueOf C → Prop
  | plain {v : Value} (h : v.IsValid) : IsValid (.plain v)
  | list {items : List (ValueOf C)} (h : ∀ v ∈ items, IsValid v) : IsValid (.list items)
  | record {cls : C} {fields : List (ValueOf C)} (h : ∀ v ∈ fields, IsValid v) :
    IsValid (.record cls fields)

theorem fits_of_items {vs : List (ValueOf C)} {drafts : List Draft}
    (hvs : ∀ v ∈ vs, ∀ {draft}, v.outline S depth = .ok draft → draft.Fits depth)
    (h : outlineItems S depth vs = .ok drafts) : ∀ draft ∈ drafts, draft.Fits depth := by
  intro draft hdraft
  rw [outlineItems_eq] at h
  obtain ⟨v, hv, hv'⟩ := Result.exists_of_mem_mapM h hdraft
  exact hvs v hv hv'

theorem fits_of_outline (hv : v.IsValid) {draft : Draft} (h : v.outline S depth = .ok draft) :
    draft.Fits depth := by
  induction hv generalizing depth draft with
  | @plain v hv =>
    rw [outline] at h
    exact Value.fits_of_outline v hv h
  | list _ ih =>
    rw [outline] at h
    split at h
    · cases h
    next hdepth =>
    obtain ⟨drafts, hdrafts, h⟩ := Result.bind_eq_ok_iff.mp h
    cases h
    exact fun j => Draft.fits_list hdepth (fits_of_items (fun v hv => ih v hv) hdrafts)
  | record _ ih =>
    rw [outline] at h
    split at h
    · cases h
    next hdepth =>
    obtain ⟨drafts, hdrafts, h⟩ := Result.bind_eq_ok_iff.mp h
    cases h
    have hall := fits_of_items (fun v hv => ih v hv) hdrafts
    exact fun j => Draft.fits_object hdepth (Ordered.nodup_ofList _) fun entry hentry =>
      hall entry.2 (List.of_mem_zip (Ordered.mem_ofList hentry)).2

end ValueOf

def ValueOf.isText : ValueOf C → Bool
  | plain v => v.isText
  | _ => false

namespace ValueOf

mutual

theorem outline_toValue : ∀ (u : ValueOf RecordClass) (depth : Nat),
    u.toValue.outline depth = u.outline Schema.records depth
  | plain v, depth => by rw [toValue, outline]
  | list items, depth => by
    rw [toValue, outline, Value.outline, outlineItems_toValue items]
  | record cls fields, depth => by
    have hkeys := Schema.keys_records cls
    have hnames := fun drafts : List Draft => Ordered.nodup_zip cls.nodup_keys drafts
    rw [toValue, outline, Value.outline, outlineItems_toValue fields]
    simp only [hkeys, Ordered.ofList_of_nodup (hnames _)]

theorem outlineItems_toValue : ∀ (us : List (ValueOf RecordClass)) (depth : Nat),
    Value.outlineItems depth (us.map toValue) = outlineItems Schema.records depth us
  | [], _ => rfl
  | u :: rest, depth => by
    rw [List.map_cons, Value.outlineItems, outlineItems, outline_toValue u,
      outlineItems_toValue rest]

end

end ValueOf

end CatalogCache
