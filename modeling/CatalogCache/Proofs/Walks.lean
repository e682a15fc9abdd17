import CatalogCache.Proofs.Paths

/-!
# Where paths lead

A path leads to the same place for as long as directories stay directories and links stay links.
Files may come, change and go.
-/

namespace CatalogCache

/-! ## Walks that arrive -/

/-- A walk that arrives, with so many links that may still be followed. -/
inductive Leads (d : Disk) (follow : Bool) : Nat → Location → List Text → Location → Prop
  | nil (links : Nat) (l : Location) : Leads d follow links l [] l
  | dot {links : Nat} {l r : Location} {rest : List Text} (h : Leads d follow links l rest r) :
    Leads d follow links l (FilePath.dot :: rest) r
  | dotDot {links : Nat} {l r : Location} {rest : List Text}
    (h : Leads d follow links l.dropLast rest r) :
    Leads d follow links l (FilePath.dotDot :: rest) r
  /-- The last name need not be there, and it may be a file. -/
  | last {links : Nat} {l : Location} {part : Text} (plain : part.IsPlain)
    (short : Walk.byteLength part ≤ Walk.maxName)
    (h : ∀ n, d.node? (l ++ [part]) = some n → ∃ bytes m, n = .file bytes m) :
    Leads d follow links l [part] (l ++ [part])
  | directory {links : Nat} {l r : Location} {part : Text} {rest : List Text} {m : Instant}
    (plain : part.IsPlain) (short : Walk.byteLength part ≤ Walk.maxName)
    (node : d.node? (l ++ [part]) = some (.directory m))
    (h : Leads d follow links (l ++ [part]) rest r) : Leads d follow links l (part :: rest) r
  /-- The last name may be a link that is not followed. -/
  | unfollowed {links : Nat} {l : Location} {part target : Text} (plain : part.IsPlain)
    (short : Walk.byteLength part ≤ Walk.maxName)
    (node : d.node? (l ++ [part]) = some (.link target)) (hfollow : follow = false) :
    Leads d follow links l [part] (l ++ [part])
  | link {links : Nat} {l r : Location} {part target : Text} {rest : List Text}
    (plain : part.IsPlain) (short : Walk.byteLength part ≤ Walk.maxName)
    (node : d.node? (l ++ [part]) = some (.link target)) (goes : rest ≠ [] ∨ follow = true)
    (h : Leads d follow links (if target.head? = some FilePath.slash then [] else l)
      (Walk.targetParts target ++ rest) r) : Leads d follow (links + 1) l (part :: rest) r

theorem leads_of_walk {d : Disk} {follow : Bool} {links : Nat} {l r : Location}
    {parts : List Text} (h : Walk.walk d follow links l parts = .ok r) :
    Leads d follow links l parts r := by
  fun_induction Walk.walk d follow links l parts with
  | case1 =>
    cases h
    exact .nil ..
  | case2 _ _ _ ih => exact .dot (ih h)
  | case3 _ _ _ _ ih => exact .dotDot (ih h)
  | case4 => cases h
  | case5 _ _ _ hdot hdots hshort hnone =>
    cases h
    exact .last ⟨hdot, hdots⟩ (Nat.le_of_not_lt hshort) (by simp [hnone])
  | case6 => cases h
  | case7 _ _ _ _ hdot hdots hshort _ hnode ih =>
    exact .directory ⟨hdot, hdots⟩ (Nat.le_of_not_lt hshort) hnode (ih h)
  | case8 _ _ _ hdot hdots hshort _ _ hnode =>
    cases h
    exact .last ⟨hdot, hdots⟩ (Nat.le_of_not_lt hshort) (by simp [hnode])
  | case9 => cases h
  | case10 _ _ _ _ hdot hdots hshort _ hnode hstay =>
    cases h
    obtain ⟨rfl, hstay⟩ := hstay
    exact .unfollowed ⟨hdot, hdots⟩ (Nat.le_of_not_lt hshort) hnode (by simpa using hstay)
  | case11 => cases h
  | case12 _ _ _ hdot hdots hshort _ hnode hgo links ih =>
    refine .link ⟨hdot, hdots⟩ (Nat.le_of_not_lt hshort) hnode ?_ (ih h)
    by_contra hstay
    simp only [not_or, not_not, Bool.not_eq_true] at hstay
    exact hgo (by simp [hstay])

theorem walk_of_leads {d : Disk} {follow : Bool} {links : Nat} {l r : Location}
    {parts : List Text} (h : Leads d follow links l parts r) :
    Walk.walk d follow links l parts = .ok r := by
  induction h with
  | nil => rw [Walk.walk]
  | dot _ ih => rw [Walk.walk, if_pos rfl, ih]
  | dotDot _ ih => rw [Walk.walk, if_neg (by decide), if_pos rfl, ih]
  | @last links l part plain short h =>
    rw [Walk.walk, if_neg plain.1, if_neg plain.2, if_neg (Nat.not_lt.mpr short)]
    cases hnode : d.node? (l ++ [part]) with
    | none => simp
    | some n =>
      obtain ⟨bytes, m, rfl⟩ := h n hnode
      simp
  | directory plain short node _ ih =>
    rw [Walk.walk, if_neg plain.1, if_neg plain.2, if_neg (Nat.not_lt.mpr short), node]
    exact ih
  | unfollowed plain short node hfollow =>
    rw [Walk.walk, if_neg plain.1, if_neg plain.2, if_neg (Nat.not_lt.mpr short), node]
    simp [hfollow]
  | link plain short node goes _ ih =>
    rw [Walk.walk, if_neg plain.1, if_neg plain.2, if_neg (Nat.not_lt.mpr short), node]
    rcases goes with goes | goes
    · simpa [goes] using ih
    · simpa [goes] using ih

/-! ## Disks that change -/

/-- Whatever a path goes through on the first disk is still there on the second. -/
structure Disk.Stable (d d' : Disk) : Prop where
  home : d'.home = d.home
  directory : ∀ l m, d.node? l = some (.directory m) → ∃ m', d'.node? l = some (.directory m')
  link : ∀ l t, d'.node? l = some (.link t) ↔ d.node? l = some (.link t)

theorem Disk.Stable.refl (d : Disk) : Disk.Stable d d :=
  ⟨rfl, fun _ m h => ⟨m, h⟩, fun _ _ => Iff.rfl⟩

theorem Disk.Stable.trans {a b c : Disk} (hab : Disk.Stable a b) (hbc : Disk.Stable b c) :
    Disk.Stable a c where
  home := hbc.home.trans hab.home
  directory := fun l m h => by
    obtain ⟨m', h'⟩ := hab.directory l m h
    exact hbc.directory l m' h'
  link := fun l t => (hbc.link l t).trans (hab.link l t)

/-- The directories and the links of the first disk are on the second. -/
structure Disk.Carries (d d' : Disk) : Prop where
  directory : ∀ l m, d.node? l = some (.directory m) → ∃ m', d'.node? l = some (.directory m')
  link : ∀ l t, d.node? l = some (.link t) → d'.node? l = some (.link t)

theorem Disk.Carries.refl (d : Disk) : Disk.Carries d d := ⟨fun _ m h => ⟨m, h⟩, fun _ _ h => h⟩

namespace Leads

variable {d d' : Disk} {follow : Bool} {links : Nat} {l r : Location} {parts : List Text}

theorem stable (hd : Disk.Stable d d') (h : Leads d follow links l parts r) :
    Leads d' follow links l parts r := by
  induction h with
  | nil => exact .nil ..
  | dot _ ih => exact .dot ih
  | dotDot _ ih => exact .dotDot ih
  | @last links l part plain short h =>
    -- What stands at the end now may be a directory, but no link.
    cases hnode : d'.node? (l ++ [part]) with
    | none => exact .last plain short (by simp [hnode])
    | some n =>
      cases n with
      | file bytes m => exact .last plain short (by simp [hnode])
      | directory m => exact .directory plain short hnode (.nil ..)
      | link target =>
        obtain ⟨_, _, hfile⟩ := h _ ((hd.link _ target).mp hnode)
        cases hfile
  | directory plain short node _ ih =>
    obtain ⟨m', node'⟩ := hd.directory _ _ node
    exact .directory plain short node' ih
  | unfollowed plain short node hfollow =>
    exact .unfollowed plain short ((hd.link _ _).mpr node) hfollow
  | link plain short node goes _ ih => exact .link plain short ((hd.link _ _).mpr node) goes ih

/-! ## Paths in pieces -/

theorem walk_append {found : List Text} {base : Location} {m : Instant}
    (h : Leads d true links l found base) (hbase : d.node? base = some (.directory m)) :
    ∃ links', ∀ follow rest, rest ≠ [] →
      Walk.walk d follow links l (found ++ rest) = Walk.walk d follow links' base rest := by
  induction h with
  | nil links => exact ⟨links, fun _ _ _ => rfl⟩
  | dot _ ih =>
    obtain ⟨links', ih⟩ := ih hbase
    refine ⟨links', fun follow rest hrest => ?_⟩
    rw [List.cons_append, Walk.walk, if_pos rfl, ih follow rest hrest]
  | dotDot _ ih =>
    obtain ⟨links', ih⟩ := ih hbase
    refine ⟨links', fun follow rest hrest => ?_⟩
    rw [List.cons_append, Walk.walk, if_neg (by decide), if_pos rfl, ih follow rest hrest]
  | last _ _ h =>
    obtain ⟨_, _, hfile⟩ := h _ hbase
    cases hfile
  | directory plain short node _ ih =>
    obtain ⟨links', ih⟩ := ih hbase
    refine ⟨links', fun follow rest hrest => ?_⟩
    rw [List.cons_append, Walk.walk, if_neg plain.1, if_neg plain.2,
      if_neg (Nat.not_lt.mpr short), node]
    exact ih follow rest hrest
  | unfollowed _ _ _ hfollow => cases hfollow
  | @link _ _ _ _ target more plain short node _ _ ih =>
    obtain ⟨links', ih⟩ := ih hbase
    refine ⟨links', fun follow rest hrest => ?_⟩
    rw [List.cons_append, Walk.walk, if_neg plain.1, if_neg plain.2,
      if_neg (Nat.not_lt.mpr short), node, ← ih follow rest hrest, List.append_assoc]
    have hmore : more ++ rest ≠ [] := by simp [hrest]
    simp [hmore]

theorem from_directory (follow : Bool) {found : List Text} {base : Location} {m : Instant}
    (h : Leads d true links l found base) (hbase : d.node? base = some (.directory m)) :
    ∃ links', ∀ {rest : List Text} {r : Location}, rest ≠ [] →
      Leads d follow links l (found ++ rest) r → Leads d follow links' base rest r := by
  obtain ⟨links', hwalk⟩ := h.walk_append hbase
  refine ⟨links', fun hrest hleads => leads_of_walk ?_⟩
  rw [← hwalk follow _ hrest, walk_of_leads hleads]

theorem of_plain {names : List Text} (hplain : ∀ name ∈ names, name.IsPlain)
    (hlinks : ∀ k t, d.node? (l ++ names.take (k + 1)) ≠ some (.link t))
    (h : Leads d follow links l names r) : r = l ++ names := by
  induction names generalizing l with
  | nil =>
    cases h
    exact (List.append_nil _).symm
  | cons name names ih =>
    rw [List.forall_mem_cons] at hplain
    have hhere : ∀ t, d.node? (l ++ [name]) ≠ some (.link t) := fun t => by
      simpa using hlinks 0 t
    cases h with
    | dot => exact absurd rfl hplain.1.1
    | dotDot => exact absurd rfl hplain.1.2
    | last => rfl
    | directory _ _ _ h =>
      rw [ih hplain.2 (fun k t => by simpa using hlinks (k + 1) t) h]
      simp
    | unfollowed _ _ node => exact absurd node (hhere _)
    | link _ _ node => exact absurd node (hhere _)

theorem ends_in_name {name : Text} (hname : name.IsPlain)
    (h : Leads d false links l (parts ++ [name]) r) : ∃ q, r = q ++ [name] := by
  generalize hall : parts ++ [name] = all at h
  induction h generalizing parts with
  | nil => simp at hall
  | dot _ ih =>
    cases parts with
    | nil =>
      obtain ⟨rfl, -⟩ := List.cons.inj hall
      exact absurd rfl hname.1
    | cons first parts => exact ih (List.cons.inj hall).2
  | dotDot _ ih =>
    cases parts with
    | nil =>
      obtain ⟨rfl, -⟩ := List.cons.inj hall
      exact absurd rfl hname.2
    | cons first parts => exact ih (List.cons.inj hall).2
  | last | unfollowed =>
    cases parts with
    | nil =>
      obtain ⟨rfl, -⟩ := List.cons.inj hall
      exact ⟨_, rfl⟩
    | cons first parts => simp at hall
  | directory _ _ _ h ih =>
    cases parts with
    | nil =>
      obtain ⟨rfl, rfl⟩ := List.cons.inj hall
      cases h
      exact ⟨_, rfl⟩
    | cons first parts => exact ih (List.cons.inj hall).2
  | @link _ _ _ _ target _ _ _ _ goes _ ih =>
    cases parts with
    | nil =>
      obtain ⟨-, rfl⟩ := List.cons.inj hall
      simp at goes
    | cons first parts =>
      refine @ih (Walk.targetParts target ++ parts) ?_
      rw [List.append_assoc]
      exact congrArg (Walk.targetParts target ++ ·) (List.cons.inj hall).2

/-- Without its last name a path leads to where the last name is looked up. It leads there as well
on a disk that has the directories and the links. -/
theorem before {name : Text} (hname : name.IsPlain)
    (h : Leads d follow links l (parts ++ [name]) r) :
    ∃ links' base, Leads d follow links' base [name] r ∧
      ∀ d', Disk.Carries d d' → Leads d' true links l parts base := by
  generalize hall : parts ++ [name] = all at h
  have hlast : ∀ {links l r}, Leads d follow links l [name] r → ∃ links' base,
      Leads d follow links' base [name] r ∧
        ∀ d', Disk.Carries d d' → Leads d' true links l [] base :=
    fun h => ⟨_, _, h, fun _ _ => .nil ..⟩
  induction h generalizing parts with
  | nil => simp at hall
  | dot h ih =>
    cases parts with
    | nil =>
      obtain ⟨rfl, -⟩ := List.cons.inj hall
      exact absurd rfl hname.1
    | cons first parts =>
      obtain ⟨rfl, hrest⟩ := List.cons.inj hall
      obtain ⟨links', base, hbase, hfound⟩ := ih hrest
      exact ⟨links', base, hbase, fun d' hd => .dot (hfound d' hd)⟩
  | dotDot h ih =>
    cases parts with
    | nil =>
      obtain ⟨rfl, -⟩ := List.cons.inj hall
      exact absurd rfl hname.2
    | cons first parts =>
      obtain ⟨rfl, hrest⟩ := List.cons.inj hall
      obtain ⟨links', base, hbase, hfound⟩ := ih hrest
      exact ⟨links', base, hbase, fun d' hd => .dotDot (hfound d' hd)⟩
  | last plain short h =>
    cases parts with
    | nil =>
      obtain ⟨rfl, -⟩ := List.cons.inj hall
      exact hlast (.last plain short h)
    | cons first parts => simp at hall
  | unfollowed plain short node hfollow =>
    cases parts with
    | nil =>
      obtain ⟨rfl, -⟩ := List.cons.inj hall
      exact hlast (.unfollowed plain short node hfollow)
    | cons first parts => simp at hall
  | directory plain short node h ih =>
    cases parts with
    | nil =>
      obtain ⟨rfl, rfl⟩ := List.cons.inj hall
      exact hlast (.directory plain short node h)
    | cons first parts =>
      obtain ⟨rfl, hrest⟩ := List.cons.inj hall
      obtain ⟨links', base, hbase, hfound⟩ := ih hrest
      refine ⟨links', base, hbase, fun d' hd => ?_⟩
      obtain ⟨m', node'⟩ := hd.directory _ _ node
      exact .directory plain short node' (hfound d' hd)
  | @link _ _ _ _ target _ plain short node goes h ih =>
    cases parts with
    | nil =>
      obtain ⟨rfl, rfl⟩ := List.cons.inj hall
      exact hlast (.link plain short node goes h)
    | cons first parts =>
      obtain ⟨rfl, hrest⟩ := List.cons.inj hall
      obtain ⟨links', base, hbase, hfound⟩ := @ih (Walk.targetParts target ++ parts)
        (by rw [← hrest, List.append_assoc]; rfl)
      exact ⟨links', base, hbase, fun d' hd =>
        .link plain short (hd.link _ _ node) (.inr rfl) (hfound d' hd)⟩

theorem of_name {name : Text} (hname : name.IsPlain) (h : Leads d false links l [name] r) :
    r = l ++ [name] := by
  cases h with
  | dot => exact absurd rfl hname.1
  | dotDot => exact absurd rfl hname.2
  | last | unfollowed => rfl
  | directory _ _ _ h =>
    cases h
    rfl
  | link _ _ _ goes => simp at goes

theorem of_file {name : Text} (hname : name.IsPlain) {bytes : List UInt8} {m : Instant}
    (hnode : d.node? (l ++ [name]) = some (.file bytes m)) (h : Leads d follow links l [name] r) :
    r = l ++ [name] := by
  cases h with
  | dot => exact absurd rfl hname.1
  | dotDot => exact absurd rfl hname.2
  | last | unfollowed => rfl
  | directory _ _ node | link _ _ node =>
    rw [hnode] at node
    cases node

theorem unique {r' : Location} (h : Leads d follow links l parts r)
    (h' : Leads d follow links l parts r') : r = r' :=
  Except.ok.inj ((walk_of_leads h).symm.trans (walk_of_leads h'))

theorem unfollow {m : Instant} (h : Leads d true links l parts r)
    (hr : d.node? r = some (.directory m)) :
    ∃ r' n, Leads d false links l parts r' ∧ d.node? r' = some n := by
  induction h with
  | nil links l => exact ⟨l, _, .nil .., hr⟩
  | dot _ ih =>
    obtain ⟨r', n, h, hn⟩ := ih hr
    exact ⟨r', n, .dot h, hn⟩
  | dotDot _ ih =>
    obtain ⟨r', n, h, hn⟩ := ih hr
    exact ⟨r', n, .dotDot h, hn⟩
  | last _ _ h =>
    obtain ⟨_, _, hfile⟩ := h _ hr
    cases hfile
  | directory plain short node _ ih =>
    obtain ⟨r', n, h, hn⟩ := ih hr
    exact ⟨r', n, .directory plain short node h, hn⟩
  | unfollowed _ _ _ hfollow => cases hfollow
  | @link _ l _ part target rest plain short node _ _ ih =>
    by_cases hrest : rest = []
    · subst hrest
      exact ⟨l ++ [part], _, .unfollowed plain short node rfl, node⟩
    · obtain ⟨r', n, h, hn⟩ := ih hr
      exact ⟨r', n, .link plain short node (.inl hrest) h, hn⟩

theorem follows (h : Leads d false links l parts r) (hr : ∀ t, d.node? r ≠ some (.link t)) :
    Leads d true links l parts r := by
  induction h with
  | nil => exact .nil ..
  | dot _ ih => exact .dot (ih hr)
  | dotDot _ ih => exact .dotDot (ih hr)
  | last plain short h => exact .last plain short h
  | directory plain short node _ ih => exact .directory plain short node (ih hr)
  | unfollowed _ _ node => exact absurd node (hr _)
  | link plain short node _ _ ih => exact .link plain short node (.inr rfl) (ih hr)

end Leads

/-! ## Places on a disk -/

namespace Disk

variable {d d' : Disk} {follow : Bool} {p : FilePath} {l : Location}

def start (d : Disk) (p : FilePath) : Location := if p.isAbsolute then [] else d.home

theorem locate_ok_iff : d.locate follow p = .ok l ↔
    Walk.byteLength p.toText ≤ Walk.maxPath ∧
      Leads d follow Walk.maxLinks (d.start p) p.parts l := by
  show (if Walk.maxPath < Walk.byteLength p.toText then .error .nameTooLong
    else Walk.walk d follow Walk.maxLinks (d.start p) p.parts) = .ok l ↔ _
  split_ifs with hlong
  · exact ⟨fun h => (nomatch h), fun h => absurd hlong (Nat.not_lt.mpr h.1)⟩
  · exact ⟨fun h => ⟨Nat.not_lt.mp hlong, leads_of_walk h⟩, fun h => walk_of_leads h.2⟩

theorem start_child (d : Disk) (p : FilePath) (name : Text) :
    d.start (p.child name) = d.start p := by
  rfl

theorem locate_before (hname : name.IsPlain) {follow : Bool} {r : Location}
    (h : d.locate follow (p.child name) = .ok r) :
    ∃ links base, Leads d follow links base [name] r ∧
      ∀ d', Carries d d' → Leads d' true Walk.maxLinks (d.start p) p.parts base := by
  rw [locate_ok_iff, start_child] at h
  exact h.2.before hname

theorem locate_stable (h : Stable d d') (hl : d.locate follow p = .ok l) :
    d'.locate follow p = .ok l := by
  rw [locate_ok_iff] at hl ⊢
  have hstart : d'.start p = d.start p := by rw [start, start, h.home]
  exact ⟨hl.1, hstart ▸ hl.2.stable h⟩

end Disk

end CatalogCache
