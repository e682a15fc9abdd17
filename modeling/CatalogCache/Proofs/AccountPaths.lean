import CatalogCache.Proofs.CallDiscipline
import Mathlib

/-!
# The paths of accounts

An account is one name below the root, and a catalog one name below its account, also where paths
are put together from texts of any kind. No other account has the path, and a text that is no
account does nothing at all.
-/

namespace CatalogCache

/-! ## Names put behind paths -/

namespace FilePath

/-- A path with a text behind it. The parts of the text go below the path, unless the text is
absolute: then it stands for itself. -/
def join (p : FilePath) (t : Text) : FilePath :=
  if rootOf t = [] then ⟨p.root, p.parts ++ partsOf t⟩ else ofText t

theorem splitOn_of_not_mem {separator : CodePoint} {t : Text} (h : separator ∉ t) :
    Text.splitOn separator t = [t] := by
  induction t with
  | nil => rfl
  | cons c t ih =>
    rw [List.mem_cons, not_or] at h
    rw [Text.splitOn, if_neg (Ne.symm h.1), ih h.2]

theorem join_of_name {t : Text} (hslash : slash ∉ t) (hne : t ≠ []) (hdot : t ≠ dot)
    (p : FilePath) : p.join t = p.child t := by
  have hparts : partsOf t = [t] := by
    rw [partsOf, splitOn_of_not_mem hslash]
    simp [hne, hdot]
  have hroot : rootOf t = [] := by
    obtain ⟨c, rest, rfl⟩ := List.exists_cons_of_ne_nil hne
    have hc : ¬c = slash := fun e => hslash (e ▸ List.mem_cons_self)
    simp [rootOf, hc]
  rw [join, if_pos hroot, hparts, child]

end FilePath

/-! ## The pattern of accounts -/

/-- One code point out of some. -/
def oneOf (cs : List CodePoint) : RegularExpression CodePoint :=
  cs.foldr (fun c rest => .char c + rest) 0

theorem mem_oneOf {cs : List CodePoint} {t : Text} :
    t ∈ (oneOf cs).matches' ↔ ∃ c ∈ cs, t = [c] := by
  induction cs with
  | nil => simp [oneOf]
  | cons d cs ih =>
    have hcons : (oneOf (d :: cs)).matches' = {[d]} + (oneOf cs).matches' := rfl
    rw [hcons, Language.mem_add, ih, List.exists_mem_cons_iff]
    rfl

theorem mem_star_oneOf {cs : List CodePoint} {t : Text} :
    t ∈ (oneOf cs).star.matches' ↔ ∀ c ∈ t, c ∈ cs := by
  rw [RegularExpression.matches'_star, Language.mem_kstar]
  constructor
  · rintro ⟨pieces, rfl, hpieces⟩ c hc
    obtain ⟨piece, hpiece, hc⟩ := List.mem_flatten.mp hc
    obtain ⟨d, hd, rfl⟩ := mem_oneOf.mp (hpieces piece hpiece)
    rw [List.mem_singleton.mp hc]
    exact hd
  · intro h
    refine ⟨t.map ([·]), (List.flatMap_singleton' t).symm, ?_⟩
    intro piece hpiece
    obtain ⟨c, hc, rfl⟩ := List.mem_map.mp hpiece
    exact mem_oneOf.mpr ⟨c, h c hc, rfl⟩

/-- The code points from one character to another. -/
def CodePoint.between (first last : Char) : List CodePoint :=
  (List.range' first.toNat (last.toNat + 1 - first.toNat)).map ofNat

theorem CodePoint.mem_between {first last : Char} {c : CodePoint} :
    c ∈ between first last ↔ first.toNat ≤ c.val ∧ c.val ≤ last.toNat := by
  have hlast := char_lt last
  simp only [between, List.mem_map, List.mem_range'_1]
  constructor
  · rintro ⟨n, hn, rfl⟩
    rw [ofNat, dif_pos (by omega)]
    dsimp only
    omega
  · intro h
    exact ⟨c.val, by omega, by rw [ofNat, dif_pos c.isLt]⟩

namespace Store

def nameStarts : List CodePoint :=
  CodePoint.between 'A' 'Z' ++ CodePoint.between 'a' 'z' ++ CodePoint.between '0' '9'

def nameParts : List CodePoint := nameStarts ++ ['.', '_', '-'].map CodePoint.ofChar

/-- Letters, digits, dots, underscores and hyphens, with a letter or a digit in front. -/
def accountPattern : RegularExpression CodePoint := oneOf nameStarts * (oneOf nameParts).star

theorem mem_nameStarts {c : CodePoint} : c ∈ nameStarts ↔ isNameStart c = true := by
  simp only [nameStarts, List.mem_append, CodePoint.mem_between, isNameStart,
    CodePoint.isAsciiLetter, CodePoint.isAsciiDigit, Bool.or_eq_true, Bool.and_eq_true,
    decide_eq_true_eq]
  rfl

theorem mem_nameParts {c : CodePoint} : c ∈ nameParts ↔ isNamePart c = true := by
  have hsigns : c ∈ ['.', '_', '-'].map CodePoint.ofChar ↔ c = 0x2e ∨ c = 0x5f ∨ c = 0x2d := by
    simp [CodePoint.ofChar]
  rw [nameParts, List.mem_append, mem_nameStarts, hsigns]
  simp [isNamePart, or_assoc]

theorem mem_accountPattern {t : Text} : t ∈ accountPattern.matches' ↔ isAccountName t = true := by
  rw [accountPattern, RegularExpression.matches'_mul, Language.mem_mul]
  constructor
  · rintro ⟨first, hfirst, rest, hrest, rfl⟩
    obtain ⟨c, hc, rfl⟩ := mem_oneOf.mp hfirst
    rw [List.singleton_append, isAccountName, Bool.and_eq_true, List.all_eq_true]
    exact ⟨mem_nameStarts.mp hc, fun d hd => mem_nameParts.mp (mem_star_oneOf.mp hrest d hd)⟩
  · intro h
    cases t with
    | nil => cases h
    | cons c rest =>
      rw [isAccountName, Bool.and_eq_true, List.all_eq_true] at h
      refine ⟨[c], mem_oneOf.mpr ⟨c, mem_nameStarts.mpr h.1, rfl⟩, rest, ?_, rfl⟩
      exact mem_star_oneOf.mpr fun d hd => mem_nameParts.mpr (h.2 d hd)

theorem slash_not_mem {t : Text} (h : isAccountName t = true) : FilePath.slash ∉ t := by
  intro hmem
  have hparts : ∀ c ∈ t, isNamePart c = true := by
    cases t with
    | nil => exact nofun
    | cons c rest =>
      rw [isAccountName, Bool.and_eq_true, List.all_eq_true] at h
      rw [List.forall_mem_cons]
      exact ⟨by simp [isNamePart, h.1], h.2⟩
  exact absurd (hparts _ hmem) (by decide)

theorem join_account {t : Text} (h : isAccountName t = true) (p : FilePath) :
    p.join t = p.child t := by
  apply FilePath.join_of_name (slash_not_mem h) _ (isPlain_of_isAccountName h).1
  rintro rfl
  cases h

theorem join_fileName (c : Catalog) (p : FilePath) : p.join c.fileName = p.child c.fileName := by
  apply FilePath.join_of_name
  · cases c <;> decide
  · cases c <;> decide
  · exact c.isPlain_fileName.1

/-! ## What asking for a path comes to -/

variable {s : Store} {account : Text} {w : World} {d : Disk}

theorem exec_accountDirectory_made (h : isAccountName account = true)
    (hfault : w.faults .makeDirectory = none)
    (hmade : w.disk.ensureDirectories w.faults (s.root.child account) w.now = (d, .ok ())) :
    (s.accountDirectory (.text account)).exec w = (.ok (s.root.child account), w.on d) := by
  unfold accountDirectory
  rw [accountName_text h, Action.exec_bind_ok (Action.exec_ofExcept _ w),
    Action.exec_bind_ok (Action.exec_get w)]
  simp only [hfault, hmade]
  rfl

theorem exec_accountDirectory_invalid (h : isAccountName account = false) (s : Store)
    (w : World) :
    (s.accountDirectory (.text account)).exec w =
      (.error (.invalidAccount (.text account)), w) := by
  have hname : accountName (.text account) = .error (.invalidAccount (.text account)) := by
    simp [accountName, h]
  unfold accountDirectory
  rw [hname, Action.exec_bind_error (Action.exec_ofExcept _ w)]

theorem directory_of_exec {p : FilePath}
    (h : ((s.accountDirectory (.text account)).exec w).1 = .ok p) :
    isAccountName account = true ∧ p = s.root.child account := by
  cases hname : isAccountName account with
  | false =>
    rw [exec_accountDirectory_invalid hname] at h
    cases h
  | true =>
    refine ⟨rfl, ?_⟩
    unfold accountDirectory at h
    rw [accountName_text hname, Action.exec_bind_ok (Action.exec_ofExcept _ w),
      Action.exec_bind_ok (Action.exec_get w)] at h
    dsimp only at h
    split at h
    · cases h
    · generalize w.disk.ensureDirectories _ _ _ = made at h
      obtain ⟨d, r⟩ := made
      cases r with
      | ok => exact (Except.ok.inj h).symm
      | error e => cases e <;> cases h

theorem path_of_exec {c : Catalog} {p : FilePath}
    (h : ((s.pathFor (.text account) c).exec w).1 = .ok p) :
    isAccountName account = true ∧ p = (s.root.child account).child c.fileName := by
  unfold pathFor at h
  cases hdirectory : (s.accountDirectory (.text account)).exec w with
  | mk r w' =>
    cases r with
    | error e =>
      rw [Action.exec_bind_error hdirectory] at h
      cases h
    | ok q =>
      rw [Action.exec_bind_ok hdirectory] at h
      obtain ⟨hname, rfl⟩ := directory_of_exec (by rw [hdirectory])
      exact ⟨hname, (Except.ok.inj h).symm⟩

/-- The account has the place of its name: once its directory can be made, each catalog has a path,
and below the root there are two names on it, the account and the file. -/
structure Places (s : Store) (account : Text) : Prop where
  name : account ∈ accountPattern.matches'
  path : ∀ (c : Catalog) w d, w.faults .makeDirectory = none →
    w.disk.ensureDirectories w.faults (s.root.join account) w.now = (d, .ok ()) →
    (s.pathFor (.text account) c).exec w =
        (.ok ((s.root.join account).join c.fileName), w.on d) ∧
      (s.file (.text account) c).exec w =
        (.ok (c.fileAt ((s.root.join account).join c.fileName)), w.on d)
  parts : ∀ c : Catalog, (s.root.join account).join c.fileName =
    ⟨s.root.root, s.root.parts ++ [account, c.fileName]⟩
  plain : account.IsPlain ∧ ∀ c : Catalog, c.fileName.IsPlain

/-- The account is refused wherever it is given, before anything is touched or asked. -/
structure Refuses (s : Store) (account : Text) : Prop where
  name : account ∉ accountPattern.matches'
  path : ∀ c w,
    (s.pathFor (.text account) c).exec w = (.error (.invalidAccount (.text account)), w)
  file : ∀ c w, (s.file (.text account) c).exec w = (.error (.invalidAccount (.text account)), w)
  calls : ∀ lifetimes below q w, q.catalog?.isSome = true →
    ((Client.cached ⟨.text account, s, lifetimes⟩ below).answer q).exec w =
      (.error (.invalidAccount (.text account)), w)

theorem places_of_valid (h : isAccountName account = true) (s : Store) : s.Places account where
  name := mem_accountPattern.mpr h
  path := by
    intro c w d hfault hmade
    rw [join_account h] at hmade ⊢
    have hdirectory := exec_accountDirectory_made h hfault hmade
    have hpath : (s.pathFor (.text account) c).exec w =
        (.ok ((s.root.child account).child c.fileName), w.on d) := by
      unfold pathFor
      rw [Action.exec_bind_ok hdirectory]
      rfl
    rw [join_fileName]
    refine ⟨hpath, ?_⟩
    unfold file
    rw [Action.exec_bind_ok hpath]
    rfl
  parts := by
    intro c
    simp [join_account h, join_fileName, FilePath.child]
  plain := ⟨isPlain_of_isAccountName h, Catalog.isPlain_fileName⟩

theorem refuses_of_invalid (h : isAccountName account = false) (s : Store) :
    s.Refuses account := by
  have hdirectory := exec_accountDirectory_invalid h s
  have hpath : ∀ c w, (s.pathFor (.text account) c).exec w =
      (.error (.invalidAccount (.text account)), w) := by
    intro c w
    unfold pathFor
    rw [Action.exec_bind_error (hdirectory w)]
  have hfile : ∀ c w, (s.file (.text account) c).exec w =
      (.error (.invalidAccount (.text account)), w) := by
    intro c w
    unfold file
    rw [Action.exec_bind_error (hpath c w)]
  refine ⟨?_, hpath, hfile, ?_⟩
  · rw [mem_accountPattern, h]
    exact Bool.false_ne_true
  · intro lifetimes below q w hq
    have hfile? : ∀ c, ((⟨.text account, s, lifetimes⟩ : Cached).file? c).exec w =
        (.error (.invalidAccount (.text account)), w) := by
      intro c
      unfold Cached.file?
      rw [Action.exec_bind_ok (by rw [Action.exec_attempt, hfile])]
      rfl
    cases q with
    | collection c => exact Action.exec_bind_error (hfile? c) _
    | item c uri => exact Action.exec_bind_error (hfile? c) _
    | linkTypes | fields | serverInfo => cases hq

/-- **Containment.** An account that matches the pattern has paths two plain names below the root,
any other is refused without a trace, and no two accounts or catalogs share a path. -/
theorem accounts_contained (s : Store) :
    (∀ account, s.Places account ∨ s.Refuses account) ∧
    ∀ a b k l w w' p, ((s.pathFor (.text a) k).exec w).1 = .ok p →
      ((s.pathFor (.text b) l).exec w').1 = .ok p → a = b ∧ k = l := by
  constructor
  · intro account
    cases h : isAccountName account with
    | true => exact .inl (places_of_valid h s)
    | false => exact .inr (refuses_of_invalid h s)
  · intro a b k l w w' p ha hb
    obtain ⟨-, rfl⟩ := path_of_exec ha
    obtain ⟨-, hpath⟩ := path_of_exec hb
    simp only [FilePath.child, FilePath.mk.injEq, true_and, List.append_assoc,
      List.append_cancel_left_eq, List.singleton_append, List.cons.injEq, and_true] at hpath
    exact ⟨hpath.1, Catalog.fileName_injective hpath.2⟩

end Store

theorem sample_contained :
    ((Cached.sampleStore.pathFor (.text "ana") .statuses).exec (Cached.sampleWorld fun _ => [])).1 =
      .ok ⟨"/", ["store", "ana", "statuses.json"]⟩ ∧
    (Cached.sampleStore.pathFor (.text "../ana") .statuses).exec (Cached.sampleWorld fun _ => []) =
      (.error (.invalidAccount (.text "../ana")), Cached.sampleWorld fun _ => []) ∧
    ((Cached.sampleStore.pathFor (.text "bob") .statuses).exec (Cached.sampleWorld fun _ => [])).1 ≠
      .ok ⟨"/", ["store", "ana", "statuses.json"]⟩ := by
  obtain ⟨hall, hinjective⟩ := Store.accounts_contained Cached.sampleStore
  have hana : ((Cached.sampleStore.pathFor (.text "ana") .statuses).exec
      (Cached.sampleWorld fun _ => [])).1 = .ok ⟨"/", ["store", "ana", "statuses.json"]⟩ := by
    cases hall "ana" with
    | inl places =>
      have hmade : (Disk.empty 0).ensureDirectories Faults.none
          (Cached.sampleStore.root.join "ana") 0 = (Cached.sampleDisk, .ok ()) := by
        cbv
      rw [(places.path .statuses (Cached.sampleWorld fun _ => []) _ rfl hmade).1, places.parts]
      rfl
    | inr refuses => exact absurd (Store.mem_accountPattern.mpr (by decide)) refuses.name
  refine ⟨hana, ?_, ?_⟩
  · cases hall "../ana" with
    | inl places => exact absurd (Store.mem_accountPattern.mp places.name) (by decide)
    | inr refuses => exact refuses.path .statuses _
  · intro hbob
    exact absurd (hinjective _ _ _ _ _ _ _ hana hbob).1 (by decide)

end CatalogCache
