import CatalogCache.Proofs.Numerals
import CatalogCache.Proofs.Texts
import CatalogCache.Store

/-!
# Paths that can be handed to the system

A NUL or a surrogate that stands for no byte makes a path useless before the disk is even asked.
Paths made of good names are good, and so are the names that the cache makes up.
-/

namespace CatalogCache

/-! ## Good code points -/

/-- The code point may stand in a path. -/
def CodePoint.isAddressable (c : CodePoint) : Bool := c ≠ 0 && (!c.isSurrogate || c.isStrayByte)

def Text.isAddressable (t : Text) : Bool := t.all CodePoint.isAddressable

theorem Text.isAddressable_iff {t : Text} : t.isAddressable = true ↔
    (∀ c ∈ t, (c.isSurrogate && !c.isStrayByte) = false) ∧ t.contains 0 = false := by
  have hgood : ∀ c : CodePoint, c.isAddressable = true ↔
      (c.isSurrogate && !c.isStrayByte) = false ∧ c ≠ 0 := by
    intro c
    unfold CodePoint.isAddressable
    cases c.isSurrogate <;> cases c.isStrayByte <;> simp
  rw [isAddressable, List.all_eq_true, ← Bool.not_eq_true, List.contains_iff_mem]
  simp only [hgood, forall_and]
  exact and_congr_right fun _ => ⟨fun h hmem => h 0 hmem rfl, fun h c hc hzero => h (hzero ▸ hc)⟩

theorem unencodable?_eq_none_iff {t : Text} (position : Nat) :
    Walk.unencodable? position t = none ↔
      ∀ c ∈ t, (c.isSurrogate && !c.isStrayByte) = false := by
  induction t generalizing position with
  | nil => exact iff_of_true rfl nofun
  | cons c t ih =>
    rw [Walk.unencodable?, List.forall_mem_cons]
    split_ifs with hc
    · exact iff_of_false nofun fun h => absurd (h.1.symm.trans hc) nofun
    · rw [ih, and_iff_right (Bool.eq_false_iff.mpr hc)]

theorem Disk.checkPath_ok_iff {t : Text} :
    Disk.checkPath t = .ok () ↔ t.isAddressable = true := by
  rw [Text.isAddressable_iff, ← unencodable?_eq_none_iff 0, Disk.checkPath]
  cases Walk.unencodable? 0 t with
  | some e => exact iff_of_false nofun (by simp)
  | none => cases t.contains 0 <;> simp

/-! ## Good paths -/

namespace FilePath

def isAddressable (p : FilePath) : Bool :=
  p.root.isAddressable && p.parts.all Text.isAddressable

theorem isAddressable_toText {p : FilePath} :
    p.toText.isAddressable = true ↔ p.isAddressable = true := by
  rw [isAddressable, toText]
  split
  · next hempty =>
    rw [hempty.1, hempty.2]
    exact iff_of_true rfl rfl
  · rw [Text.isAddressable, List.all_append, Bool.and_eq_true, Bool.and_eq_true]
    refine and_congr_right fun _ => ?_
    simp only [List.all_eq_true]
    constructor
    · intro h part hpart
      exact List.all_eq_true.mpr fun c hc => h c (Text.subset_join hpart hc)
    · intro h c hc
      rcases Text.mem_join hc with hc | ⟨part, hpart, hc⟩
      · rw [List.mem_singleton.mp hc]
        rfl
      · exact List.all_eq_true.mp (h part hpart) c hc

theorem isAddressable_child {p : FilePath} {part : Text} (h : p.isAddressable = true)
    (hpart : part.isAddressable = true) : (p.child part).isAddressable = true := by
  simp only [isAddressable, child, Bool.and_eq_true, List.all_append, List.all_cons,
    List.all_nil] at h ⊢
  exact ⟨h.1, h.2, hpart, trivial⟩

theorem isAddressable_of_subset {p q : FilePath} (h : p.isAddressable = true)
    (hroot : q.root = p.root) (hparts : q.parts ⊆ p.parts) : q.isAddressable = true := by
  simp only [isAddressable, Bool.and_eq_true, List.all_eq_true] at h ⊢
  exact ⟨hroot ▸ h.1, fun part hpart => h.2 part (hparts hpart)⟩

theorem isAddressable_parent {p : FilePath} (h : p.isAddressable = true) :
    p.parent.isAddressable = true :=
  isAddressable_of_subset h rfl (List.dropLast_subset _)

theorem foldl_subset {step : List Text → Text → List Text}
    (h : ∀ done part, step done part ⊆ done ++ [part]) (parts done : List Text) :
    parts.foldl step done ⊆ done ++ parts := by
  induction parts generalizing done with
  | nil => rw [List.append_nil]; exact List.Subset.refl _
  | cons part parts ih =>
    intro x hx
    rw [List.append_cons]
    rcases List.mem_append.mp (ih _ hx) with hx | hx
    · exact List.mem_append_left _ (h done part hx)
    · exact List.mem_append_right _ hx

theorem collapse_subset (p : FilePath) : p.collapse.parts ⊆ p.parts := by
  refine foldl_subset (fun done part => ?_) p.parts []
  split
  · exact List.Subset.refl _
  split
  · exact List.nil_subset _
  split
  · exact List.Subset.refl _
  · exact fun x hx => List.mem_append_left _ (List.dropLast_subset _ hx)

theorem isAddressable_collapse {p : FilePath} (h : p.isAddressable = true) :
    p.collapse.isAddressable = true :=
  isAddressable_of_subset h rfl (collapse_subset p)

end FilePath

theorem Disk.checkPath_toText_iff {p : FilePath} :
    Disk.checkPath p.toText = .ok () ↔ p.isAddressable = true :=
  Disk.checkPath_ok_iff.trans FilePath.isAddressable_toText

theorem Disk.checkPath_unaddressable {p : FilePath} (hp : p.isAddressable = false) :
    ∃ e, Disk.checkPath p.toText = .error e ∧ ∀ e', e ≠ .system e' := by
  cases hcheck : Disk.checkPath p.toText with
  | ok =>
    rw [Disk.checkPath_toText_iff.mp hcheck] at hp
    cases hp
  | error e =>
    refine ⟨e, rfl, ?_⟩
    rintro e' rfl
    unfold Disk.checkPath at hcheck
    split at hcheck
    · cases hcheck
    · split_ifs at hcheck
      cases hcheck

/-- The place where relative paths start has good names. -/
def Disk.hasGoodHome (d : Disk) : Bool := d.home.all Text.isAddressable

theorem Disk.isAddressable_absolute {d : Disk} {p : FilePath} (hhome : d.hasGoodHome = true)
    (h : p.isAddressable = true) : (d.absolute p).isAddressable = true := by
  unfold Disk.absolute
  split
  · exact FilePath.isAddressable_collapse h
  · apply FilePath.isAddressable_collapse
    rw [FilePath.isAddressable, Bool.and_eq_true] at h ⊢
    exact ⟨rfl, by rw [List.all_append, Bool.and_eq_true]; exact ⟨hhome, h.2⟩⟩

/-! ## Names that are made up -/

/-- A name that stands for itself on a path. -/
def Text.IsPlain (t : Text) : Prop := t ≠ FilePath.dot ∧ t ≠ FilePath.dotDot

theorem isAddressable_of_lt {c : CodePoint} (h : 0 < c.val ∧ c.val < 0x7f) :
    c.isAddressable = true := by
  have hzero : c ≠ 0 := by
    rintro rfl
    exact absurd h.1 (by decide)
  have hsurrogate : c.isSurrogate = false := by
    simp only [CodePoint.isSurrogate, Bool.and_eq_false_iff, decide_eq_false_iff_not]
    omega
  simp [CodePoint.isAddressable, hzero, hsurrogate]

theorem Catalog.isAddressable_fileName (c : Catalog) : c.fileName.isAddressable = true := by
  cases c <;> decide

theorem Catalog.isPlain_fileName (c : Catalog) : c.fileName.IsPlain := by
  cases c <;> exact ⟨by decide, by decide⟩

theorem Catalog.fileName_injective {c c' : Catalog} (h : c.fileName = c'.fileName) : c = c' := by
  cases c <;> cases c' <;> first | rfl | exact absurd h (by decide)

namespace Store

theorem isNamePart_ascii {c : CodePoint} (h : isNamePart c = true) : 0 < c.val ∧ c.val < 0x7f := by
  simp only [isNamePart, isNameStart, CodePoint.isAsciiLetter, CodePoint.isAsciiDigit,
    Bool.or_eq_true, Bool.and_eq_true, decide_eq_true_eq] at h
  rcases h with (((h | h) | rfl) | rfl) | rfl
  · omega
  · omega
  · decide
  · decide
  · decide

theorem isAddressable_of_isAccountName {t : Text} (h : isAccountName t = true) :
    t.isAddressable = true := by
  cases t with
  | nil => rfl
  | cons c t =>
    rw [isAccountName, Bool.and_eq_true] at h
    rw [Text.isAddressable, List.all_cons, Bool.and_eq_true]
    refine ⟨isAddressable_of_lt (isNamePart_ascii (by simp [isNamePart, h.1])), ?_⟩
    exact List.all_eq_true.mpr fun d hd =>
      isAddressable_of_lt (isNamePart_ascii (List.all_eq_true.mp h.2 d hd))

theorem isPlain_of_isAccountName {t : Text} (h : isAccountName t = true) : t.IsPlain :=
  ⟨by rintro rfl; exact absurd h (by decide), by rintro rfl; exact absurd h (by decide)⟩

theorem accountName_text {t : Text} (h : isAccountName t = true) :
    accountName (.text t) = .ok t := by
  have hne : t ≠ [] := by
    rintro rfl
    exact absurd h (by decide)
  rw [accountName, if_pos (by simpa [Value.isTrue] using hne)]
  exact if_pos h

end Store

namespace Disk

theorem head?_tempName (name : Text) (serial : Nat) :
    (tempName name serial).head? = some 0x2e := rfl

theorem isPlain_tempName (name : Text) (serial : Nat) : (tempName name serial).IsPlain := by
  have hlength : 5 ≤ (tempName name serial).length := by
    simp [tempName, Text.ofString]
    omega
  constructor <;> intro h <;> rw [h] at hlength <;> exact absurd hlength (by decide)

theorem isAddressable_tempName {name : Text} (h : name.isAddressable = true) (serial : Nat) :
    (tempName name serial).isAddressable = true := by
  have hserial : (Text.padZeros 8 (Text.ofNat serial)).isAddressable = true := by
    rw [Text.padZeros, Text.isAddressable, List.all_append, Bool.and_eq_true]
    refine ⟨?_, List.all_eq_true.mpr fun c hc => ?_⟩
    · exact List.all_eq_true.mpr fun c hc => by rw [List.eq_of_mem_replicate hc]; rfl
    · have hdigit := Text.isAsciiDigit_ofNat serial c hc
      simp only [CodePoint.isAsciiDigit, Bool.and_eq_true, decide_eq_true_eq] at hdigit
      exact isAddressable_of_lt (by omega)
  have hdot : Text.isAddressable "." = true := by decide
  have htmp : Text.isAddressable ".tmp" = true := by decide
  simp only [Text.isAddressable] at h hserial hdot htmp ⊢
  simp only [tempName, List.flatten_cons, List.flatten_nil, List.append_nil, List.all_append, h,
    hserial, hdot, htmp, Bool.and_self]

end Disk

end CatalogCache
