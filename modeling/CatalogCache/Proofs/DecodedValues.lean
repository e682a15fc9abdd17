import CatalogCache.Codec.Decode
import CatalogCache.Proofs.Results

/-!
# Decoded values are of their shape

Whatever a document says, what it is decoded into is a value of the shape that was asked for.
-/

namespace CatalogCache

theorem Shape.inhabits_of_decodeWith {record : RecordClass → Json → Except CodecError Value}
    (hrecord : ∀ {cls j v}, record cls j = .ok v → Inhabits v (.record cls)) {shape : Shape}
    {j : Json} {v : Value} (h : decodeWith record shape j = .ok v) : Inhabits v shape := by
  induction shape generalizing j v with
  | bool =>
    cases j with
    | bool b => cases h; exact .bool b
    | _ => cases h
  | int =>
    cases j with
    | int i => cases h; exact .int i
    | _ => cases h
  | real =>
    cases j with
    | real x => cases h; exact .real x
    | int i => cases h; exact .intAsReal i
    | _ => cases h
  | text =>
    cases j with
    | text t => cases h; exact .text t
    | _ => cases h
  | anything => exact .anything v
  | nothing => exact .nothing v
  | anyList => exact .anyList v
  | anyDict => exact .anyDict v
  | listOfAnything =>
    cases j with
    | list items => cases h; exact .listOfAnything _
    | _ => cases h
  | list item ih =>
    cases j with
    | list items =>
      obtain ⟨vs, hvs, rfl⟩ := Result.map_eq_ok_iff.mp h
      refine .list fun v hv => ?_
      obtain ⟨j, -, hj⟩ := Result.exists_of_mem_mapM hvs hv
      exact ih hj
    | _ => cases h
  | optional shape ih =>
    cases j with
    | null => cases h; exact .null shape
    | _ => exact .optional (ih h)
  | choice nullable => exact .choice v nullable
  | record cls => exact hrecord (j := j) (by cases j <;> exact h)

namespace Codec

variable {codec : Codec} {decode : Shape → Json → Except CodecError Value} {cls : RecordClass}

theorem decodeProperty_spec (hdecode : ∀ {shape j v}, decode shape j = .ok v → Inhabits v shape)
    {members : Members} {p : Property} {v? : Option Value}
    (h : codec.decodeProperty decode cls members p = .ok v?) :
    v? = p.default? ∨ ∃ v, v? = some v ∧ Inhabits v p.shape := by
  have hsome : ∀ {j}, some <$> decode p.shape j = .ok v? →
      ∃ v, v? = some v ∧ Inhabits v p.shape := by
    intro j hj
    obtain ⟨v, hv, rfl⟩ := Result.map_eq_ok_iff.mp hj
    exact ⟨v, rfl, hdecode hv⟩
  unfold decodeProperty at h
  split at h
  · exact .inl (Except.ok.inj h).symm
  split at h
  · split at h
    · exact .inr (hsome h)
    · split at h
      · exact .inl (Except.ok.inj h).symm
      · cases h
  · exact .inr (hsome h)
  · split at h
    · exact .inl (Except.ok.inj h).symm
    · cases h

theorem forall_filterMap {ps : List Property} {fields : List (Option Value)}
    (h : List.Forall₂ (fun p v? => v? = p.default? ∨ ∃ v, v? = some v ∧ Inhabits v p.shape)
      ps fields)
    (hsome : (ps.zip fields).filter (·.2.isNone) = []) :
    List.Forall₂ (fun p v => p.default? ≠ some v → Inhabits v p.shape) ps
      (fields.filterMap id) := by
  induction h with
  | nil => exact .nil
  | @cons p v? ps fields hv _ ih =>
    cases v? with
    | none => simp at hsome
    | some v =>
      rw [List.filterMap_cons_some (f := id) rfl]
      refine .cons (fun hdefault => ?_) (ih (by simpa using hsome))
      rcases hv with hsame | ⟨v', hv', hinhabits⟩
      · exact absurd hsame.symm hdefault
      · exact Option.some.inj hv' ▸ hinhabits

theorem inhabits_of_decodeRecord
    (hdecode : ∀ {shape j v}, decode shape j = .ok v → Inhabits v shape) {j : Json} {v : Value}
    (h : codec.decodeRecord decode cls j = .ok v) : Inhabits v (.record cls) := by
  cases j with
  | object members =>
    obtain ⟨fields, hfields, h⟩ := Result.bind_eq_ok_iff.mp h
    rw [Result.mapM_eq_ok_iff] at hfields
    have hspec := hfields.imp fun p v? hv => decodeProperty_spec hdecode hv
    dsimp only at h
    split at h
    · cases h
    split at h
    · cases h
    next hmissing =>
    cases h
    have hall := forall_filterMap hspec (not_not.mp hmissing)
    rw [List.forall₂_iff_zip] at hall
    exact .record hall.1.symm fun entry hentry => hall.2 hentry
  | _ => cases h

theorem inhabits_of_decodeClass {rank : Nat} {j : Json} {v : Value}
    (h : codec.decodeClass rank cls j = .ok v) : Inhabits v (.record cls) := by
  induction rank generalizing cls j v with
  | zero => exact inhabits_of_decodeRecord (Shape.inhabits_of_decodeWith (by rintro _ _ _ ⟨⟩)) h
  | succ rank ih => exact inhabits_of_decodeRecord (Shape.inhabits_of_decodeWith ih) h

/-- **Soundness.** What a text is decoded into is a value of the shape. -/
theorem inhabits_of_decode {t : Text} {shape : Shape} {v : Value}
    (h : codec.decode t shape = .ok v) : Inhabits v shape := by
  unfold Codec.decode at h
  split at h
  · cases h
  · cases h
  · cases h
  · next j _ =>
    cases hdecode : codec.decodeShape shape j with
    | error e => simp [hdecode] at h
    | ok v' =>
      obtain rfl : v' = v := by simpa [hdecode] using h
      exact Shape.inhabits_of_decodeWith (fun h => inhabits_of_decodeClass h) hdecode

end Codec

end CatalogCache
