import CatalogCache.Proofs.Changes

/-!
# Down by plain names

A path may come to a directory however it likes, and go on from there by plain names past no link.
Where it leads, and whether its directories can be made, depends only on what stands on the way.
-/

namespace CatalogCache

/-! ## Walks -/

namespace Walk

variable {d d' : Disk} {follow : Bool} {links : Nat} {l : Location} {part : Text}
  {rest names : List Text}

theorem walk_long (plain : part.IsPlain) (long : maxName < byteLength part) :
    walk d follow links l (part :: rest) = .error .nameTooLong := by
  rw [walk, if_neg plain.1, if_neg plain.2, if_pos long]

theorem walk_directory (plain : part.IsPlain) (short : byteLength part ≤ maxName) {m : Instant}
    (node : d.node? (l ++ [part]) = some (.directory m)) :
    walk d follow links l (part :: rest) = walk d follow links (l ++ [part]) rest := by
  rw [walk, if_neg plain.1, if_neg plain.2, if_neg (Nat.not_lt.mpr short), node]

theorem walk_none (plain : part.IsPlain) (short : byteLength part ≤ maxName)
    (node : d.node? (l ++ [part]) = none) : walk d follow links l (part :: rest) =
      if rest = [] then .ok (l ++ [part]) else .error .noEntry := by
  rw [walk, if_neg plain.1, if_neg plain.2, if_neg (Nat.not_lt.mpr short), node]

theorem walk_file (plain : part.IsPlain) (short : byteLength part ≤ maxName) {bytes : List UInt8}
    {m : Instant} (node : d.node? (l ++ [part]) = some (.file bytes m)) :
    walk d follow links l (part :: rest) =
      if rest = [] then .ok (l ++ [part]) else .error .notDirectory := by
  rw [walk, if_neg plain.1, if_neg plain.2, if_neg (Nat.not_lt.mpr short), node]

theorem walk_congr (hplain : ∀ name ∈ names, name.IsPlain)
    (hnolink : ∀ k t, d.node? (l ++ names.take (k + 1)) ≠ some (.link t))
    (hkept : ∀ k < names.length, d.Kept d' (l ++ names.take (k + 1))) (follow follow' : Bool)
    (links links' : Nat) : walk d follow links l names = walk d' follow' links' l names := by
  induction names generalizing l with
  | nil => rw [walk, walk]
  | cons name names ih =>
    rw [List.forall_mem_cons] at hplain
    obtain ⟨plain, hplain⟩ := hplain
    by_cases hshort : byteLength name ≤ maxName
    · have hhere : d.Kept d' (l ++ [name]) := by simpa using hkept 0 (by simp)
      cases hnode : d.node? (l ++ [name]) with
      | none =>
        rw [walk_none plain hshort hnode, walk_none plain hshort (hhere.none hnode)]
      | some n =>
        cases n with
        | file bytes m =>
          have hnode' : d'.node? (l ++ [name]) = some (.file bytes m) :=
            (hhere.same (by simp [hnode])).trans hnode
          rw [walk_file plain hshort hnode, walk_file plain hshort hnode']
        | directory m =>
          have hnode' : ∃ m', d'.node? (l ++ [name]) = some (.directory m') := by
            rcases hhere with hsame | ⟨_, m', -, hm'⟩
            · exact ⟨m, hsame.trans hnode⟩
            · exact ⟨m', hm'⟩
          obtain ⟨m', hnode'⟩ := hnode'
          rw [walk_directory plain hshort hnode, walk_directory plain hshort hnode']
          apply ih hplain
          · intro k t
            simpa using hnolink (k + 1) t
          · intro k hk
            simpa using hkept (k + 1) (by simpa using hk)
        | link t => exact absurd hnode (by simpa using hnolink 0 t)
    · rw [walk_long plain (by omega), walk_long plain (by omega)]

theorem walk_last (plain : part.IsPlain) (short : byteLength part ≤ maxName)
    (hnode : ∀ n, d.node? (l ++ [part]) = some n → ∃ m, n = .directory m) :
    walk d follow links l [part] = .ok (l ++ [part]) := by
  cases hn : d.node? (l ++ [part]) with
  | none => rw [walk_none plain short hn, if_pos rfl]
  | some n =>
    obtain ⟨m, rfl⟩ := hnode n hn
    rw [walk_directory plain short hn, walk]

theorem walk_way (hplain : ∀ name ∈ names, name.IsPlain)
    (hshort : ∀ name ∈ names, byteLength name ≤ maxName)
    (hway : ∀ k n, k < names.length → d.node? (l ++ names.take (k + 1)) = some n →
      ∃ m, n = .directory m) :
    walk d follow links l names = .ok (l ++ names) ∨
      walk d follow links l names = .error .noEntry := by
  induction names generalizing l with
  | nil =>
    left
    rw [walk, List.append_nil]
  | cons name names ih =>
    rw [List.forall_mem_cons] at hplain hshort
    cases hnode : d.node? (l ++ [name]) with
    | none =>
      rw [walk_none hplain.1 hshort.1 hnode]
      by_cases hnames : names = []
      · left
        rw [if_pos hnames, hnames]
      · right
        rw [if_neg hnames]
    | some n =>
      obtain ⟨m, rfl⟩ := hway 0 n (by simp) (by simpa using hnode)
      rw [walk_directory hplain.1 hshort.1 hnode]
      have hrest := ih (l := l ++ [name]) hplain.2 hshort.2
        (fun k n hk hn => hway (k + 1) n (by simpa using hk) (by simpa using hn))
      rwa [List.append_assoc] at hrest

theorem walk_through (hplain : ∀ name ∈ names, name.IsPlain)
    (hshort : ∀ name ∈ names, byteLength name ≤ maxName)
    (hway : ∀ k < names.length, ∃ m, d.node? (l ++ names.take (k + 1)) = some (.directory m)) :
    walk d follow links l (names ++ rest) = walk d follow links (l ++ names) rest := by
  induction names generalizing l with
  | nil => simp
  | cons name names ih =>
    rw [List.forall_mem_cons] at hplain hshort
    obtain ⟨m, hm⟩ := hway 0 (by simp)
    have hnode : d.node? (l ++ [name]) = some (.directory m) := by simpa using hm
    rw [List.cons_append, walk_directory hplain.1 hshort.1 hnode, ih hplain.2 hshort.2]
    · simp
    · intro k hk
      simpa using hway (k + 1) (by simpa using hk)

end Walk

theorem Leads.way {d : Disk} {follow : Bool} {links : Nat} {l r : Location} {names rest : List Text}
    (hplain : ∀ name ∈ names, name.IsPlain)
    (hnolink : ∀ k t, d.node? (l ++ names.take (k + 1)) ≠ some (.link t))
    (h : Leads d follow links l (names ++ rest) r)
    (hr : rest = [] → ∃ m, d.node? r = some (.directory m)) :
    (∀ name ∈ names, Walk.byteLength name ≤ Walk.maxName) ∧
      ∀ k < names.length, ∃ m, d.node? (l ++ names.take (k + 1)) = some (.directory m) := by
  induction names generalizing l with
  | nil => exact ⟨nofun, nofun⟩
  | cons name names ih =>
    rw [List.forall_mem_cons] at hplain
    have hhere : ∀ t, d.node? (l ++ [name]) ≠ some (.link t) := fun t => by
      simpa using hnolink 0 t
    rw [List.cons_append] at h
    generalize hall : names ++ rest = all at h
    cases h with
    | dot => exact absurd rfl hplain.1.1
    | dotDot => exact absurd rfl hplain.1.2
    | last _ short h =>
      obtain ⟨m, hm⟩ := hr (List.append_eq_nil_iff.mp hall).2
      obtain ⟨_, _, hfile⟩ := h _ hm
      cases hfile
    | unfollowed _ _ node | link _ _ node => exact absurd node (hhere _)
    | directory _ short node h =>
      subst hall
      obtain ⟨hshort, hdirectory⟩ := ih hplain.2 (fun k t => by simpa using hnolink (k + 1) t) h
      refine ⟨List.forall_mem_cons.mpr ⟨short, hshort⟩, fun k hk => ?_⟩
      cases k with
      | zero => exact ⟨_, by simpa using node⟩
      | succ k => simpa using hdirectory k (by simpa using hk)

/-! ## Lengths of paths -/

theorem Walk.byteLength_append (t u : Text) :
    byteLength (t ++ u) = byteLength t + byteLength u := by
  have hfrom : ∀ (u : Text) (n : Nat),
      u.foldl (fun n c => n + if c.isStrayByte then 1 else (Utf8.encodePoint c).length) n =
        n + byteLength u := by
    intro u
    induction u with
    | nil => exact fun _ => rfl
    | cons c u ih =>
      intro n
      rw [byteLength, List.foldl_cons, List.foldl_cons, ih, ih]
      omega
  rw [byteLength, List.foldl_append, hfrom]
  rfl

theorem FilePath.short_of_child {p : FilePath} {part : Text}
    (h : Walk.byteLength (p.child part).toText ≤ Walk.maxPath) :
    Walk.byteLength p.toText ≤ Walk.maxPath := by
  obtain ⟨root, parts⟩ := p
  cases parts with
  | nil =>
    by_cases hroot : root = []
    · subst hroot
      decide
    · rw [child, toText, if_neg (by simp), Walk.byteLength_append] at h
      rw [toText, if_neg (by simp [hroot]), Text.join, List.append_nil]
      dsimp only at h ⊢
      omega
  | cons first parts =>
    have htext : (child ⟨root, first :: parts⟩ part).toText =
        toText ⟨root, first :: parts⟩ ++ ([slash] ++ part) := by
      rw [child, toText, toText, if_neg (by simp), if_neg (by simp), List.cons_append,
        Text.join_cons, Text.join_cons, List.flatMap_append, List.append_assoc, List.append_assoc]
      simp
    rw [htext, Walk.byteLength_append] at h
    omega

/-! ## Paths that go on by plain names -/

namespace Disk

/-- The path leads to the directory at `base`, and from there plain names lead on, past no link. -/
structure Goes (d : Disk) (p : FilePath) (base : Location) (names : List Text) : Prop where
  front : ∃ front, p.parts = front ++ names ∧ Leads d true Walk.maxLinks (d.start p) front base
  there : ∃ m, d.node? base = some (.directory m)
  plain : ∀ name ∈ names, name.IsPlain
  linkless : ∀ k t, d.node? (base ++ names.take (k + 1)) ≠ some (.link t)

namespace Goes

variable {d d' : Disk} {p : FilePath} {base l : Location} {names : List Text} {name : Text}
  {follow : Bool}

theorem stable (h : d.Goes p base names) (hd : Disk.Stable d d') : d'.Goes p base names where
  front := by
    obtain ⟨front, hparts, hleads⟩ := h.front
    have hstart : d'.start p = d.start p := by rw [start, start, hd.home]
    exact ⟨front, hparts, hstart ▸ hleads.stable hd⟩
  there := by
    obtain ⟨m, hm⟩ := h.there
    exact hd.directory base m hm
  plain := h.plain
  linkless := fun k t ht => h.linkless k t ((hd.link _ t).mp ht)

theorem parent (h : d.Goes p base (names ++ [name])) : d.Goes p.parent base names where
  front := by
    obtain ⟨front, hparts, hleads⟩ := h.front
    refine ⟨front, ?_, hleads⟩
    rw [FilePath.parent, hparts, ← List.append_assoc, List.dropLast_concat]
  there := h.there
  plain := fun name hname => h.plain name (List.mem_append_left _ hname)
  linkless := by
    intro k t
    by_cases hk : k < names.length
    · have hlink := h.linkless k t
      rwa [List.take_append_of_le_length hk] at hlink
    · have hlink := h.linkless (names.length - 1) t
      rw [List.take_of_length_le (by omega)]
      cases names with
      | nil =>
        obtain ⟨m, hm⟩ := h.there
        simp [hm]
      | cons first names =>
        rw [List.take_append_of_le_length (by simp)] at hlink
        simpa using hlink

theorem child_parent (h : d.Goes p base (names ++ [name])) : p = p.parent.child name := by
  obtain ⟨front, hparts, -⟩ := h.front
  obtain ⟨root, parts⟩ := p
  obtain rfl : parts = front ++ (names ++ [name]) := hparts
  rw [FilePath.parent, FilePath.child, ← List.append_assoc, List.dropLast_concat]

theorem parts_ne_nil (h : d.Goes p base (names ++ [name])) : p.parts ≠ [] := by
  obtain ⟨front, hparts, -⟩ := h.front
  simp [hparts]

theorem locate (h : d.Goes p base names) (hnames : names ≠ []) : ∃ links, ∀ follow,
    d.locate follow p = if Walk.maxPath < Walk.byteLength p.toText then .error .nameTooLong
      else Walk.walk d follow links base names := by
  obtain ⟨front, hparts, hleads⟩ := h.front
  obtain ⟨m, hm⟩ := h.there
  obtain ⟨links, hwalk⟩ := hleads.walk_append hm
  refine ⟨links, fun follow => ?_⟩
  rw [← hwalk follow names hnames, ← hparts]
  rfl

theorem place (h : d.Goes p base names) (hnames : names ≠ [])
    (hl : d.locate follow p = .ok l) : l = base ++ names := by
  obtain ⟨links, hlocate⟩ := h.locate hnames
  rw [hlocate follow] at hl
  split_ifs at hl
  exact (leads_of_walk hl).of_plain h.plain h.linkless

theorem locate_congr (h : d.Goes p base names) (h' : d'.Goes p base names) (hnames : names ≠ [])
    (hkept : ∀ k < names.length, d.Kept d' (base ++ names.take (k + 1))) (follow : Bool) :
    d.locate follow p = d'.locate follow p := by
  obtain ⟨links, hlocate⟩ := h.locate hnames
  obtain ⟨links', hlocate'⟩ := h'.locate hnames
  rw [hlocate, hlocate', Walk.walk_congr h.plain h.linkless hkept follow follow links links']

theorem locate_follow (h : d.Goes p base names) (hnames : names ≠ []) :
    d.locate true p = d.locate false p := by
  obtain ⟨links, hlocate⟩ := h.locate hnames
  rw [hlocate, hlocate, Walk.walk_congr h.plain h.linkless (fun _ _ => .inl rfl) true false links
    links]

theorem way_of_status (h : d.Goes p base names) (hp : p.isAddressable = true)
    (hthere : ∃ m, d.status p = .ok (.directory m)) :
    Walk.byteLength p.toText ≤ Walk.maxPath ∧
      (∀ name ∈ names, Walk.byteLength name ≤ Walk.maxName) ∧
      ∀ k < names.length, ∃ m, d.node? (base ++ names.take (k + 1)) = some (.directory m) := by
  obtain ⟨m, hm⟩ := hthere
  obtain ⟨l, hl, hnode⟩ := (status_ok_iff hp).mp hm
  have hshort := (locate_ok_iff.mp hl).1
  refine ⟨hshort, ?_⟩
  by_cases hnames : names = []
  · subst hnames
    exact ⟨nofun, nofun⟩
  · obtain ⟨links, hlocate⟩ := h.locate hnames
    rw [hlocate, if_neg (Nat.not_lt.mpr hshort)] at hl
    rw [← List.append_nil names] at hl
    exact (leads_of_walk hl).way h.plain h.linkless fun _ => ⟨m, hnode⟩

theorem way_of_locate (h : d.Goes p base (names ++ [name])) (hl : d.locate follow p = .ok l) :
    (∀ name ∈ names, Walk.byteLength name ≤ Walk.maxName) ∧
      ∀ k < names.length, ∃ m, d.node? (base ++ names.take (k + 1)) = some (.directory m) := by
  have hshort := (locate_ok_iff.mp hl).1
  obtain ⟨links, hlocate⟩ := h.locate (by simp)
  rw [hlocate, if_neg (Nat.not_lt.mpr hshort)] at hl
  exact (leads_of_walk hl).way h.parent.plain h.parent.linkless nofun

theorem status_of_way (h : d.Goes p base names) (hp : p.isAddressable = true) (hnames : names ≠ [])
    (hshort : Walk.byteLength p.toText ≤ Walk.maxPath)
    (hshorts : ∀ name ∈ names, Walk.byteLength name ≤ Walk.maxName)
    (hway : ∀ k < names.length, ∃ m, d.node? (base ++ names.take (k + 1)) = some (.directory m)) :
    ∃ m, d.status p = .ok (.directory m) := by
  obtain ⟨links, hlocate⟩ := h.locate hnames
  have hwalk : Walk.walk d true links base (names ++ []) = .ok (base ++ names) := by
    rw [Walk.walk_through h.plain hshorts hway, Walk.walk]
  have hl := hlocate true
  rw [if_neg (Nat.not_lt.mpr hshort), ← List.append_nil names, hwalk] at hl
  have hpos := List.length_pos_iff.mpr hnames
  obtain ⟨m, hm⟩ := hway (names.length - 1) (by omega)
  rw [List.take_of_length_le (by omega)] at hm
  exact ⟨m, (status_ok_iff hp).mpr ⟨_, hl, hm⟩⟩

end Goes

end Disk

/-! ## Making directories -/

namespace Disk

variable {d d' : Disk} {faults : Faults} {p : FilePath} {now : Instant}

theorem ensureDirectory_ok (h : d.ensureDirectory faults p now = .ok d') :
    d' = d ∨ ∃ l, d.find false p = .ok l ∧ d.node? l = none ∧
      d' = d.enter l (.directory now) now := by
  unfold ensureDirectory at h
  cases hmake : d.makeDirectory p now with
  | ok d₁ =>
    rw [hmake] at h
    obtain rfl := Except.ok.inj h
    obtain ⟨l, hl, hmake⟩ := Result.bind_eq_ok_iff.mp hmake
    cases hnode : d.node? l with
    | some n => simp [hnode] at hmake
    | none =>
      rw [hnode] at hmake
      exact .inr ⟨l, hl, hnode, (Except.ok.inj hmake).symm⟩
  | error e =>
    rw [hmake] at h
    cases e with
    | system e =>
      dsimp only at h
      split_ifs at h
      obtain ⟨b, -, h⟩ := Result.bind_eq_ok_iff.mp h
      cases b with
      | true => exact .inl (Except.ok.inj h).symm
      | false => cases h
    | nullByte | unencodable => cases h

theorem status_of_leads {base : Location} (hp : p.isAddressable = true)
    (hshort : Walk.byteLength p.toText ≤ Walk.maxPath)
    (hleads : Leads d true Walk.maxLinks (d.start p) p.parts base) {m : Instant}
    (hbase : d.node? base = some (.directory m)) : d.status p = .ok (.directory m) :=
  (status_ok_iff hp).mpr ⟨base, locate_ok_iff.mpr ⟨hshort, hleads⟩, hbase⟩

/-- How an attempt to make a directory and those above it ends. -/
inductive Makes (d : Disk) (faults : Faults) (p : FilePath) (now : Instant) :
    Disk → Except FileError Unit → Prop
  | here {d' : Disk} (made : d.ensureDirectory faults p now = .ok d') :
    Makes d faults p now d' (.ok ())
  | stuck {e : FileError} (failed : d.ensureDirectory faults p now = .error e) :
    Makes d faults p now d (.error e)
  | above {d' : Disk} {e : FileError} (failed : ∃ e, d.ensureDirectory faults p now = .error e)
    (up : d.ensureDirectories faults p.parent now = (d', .error e)) :
    Makes d faults p now d' (.error e)
  | again {d₁ d' : Disk} (failed : ∃ e, d.ensureDirectory faults p now = .error e)
    (up : d.ensureDirectories faults p.parent now = (d₁, .ok ()))
    (made : d₁.ensureDirectory faults p now = .ok d') : Makes d faults p now d' (.ok ())
  | lost {d' : Disk} {e : FileError} (failed : ∃ e, d.ensureDirectory faults p now = .error e)
    (up : d.ensureDirectories faults p.parent now = (d', .ok ()))
    (failedAgain : d'.ensureDirectory faults p now = .error e) :
    Makes d faults p now d' (.error e)

theorem makes_of {r : Except FileError Unit} (h : d.ensureDirectories faults p now = (d', r)) :
    d.Makes faults p now d' r := by
  rw [ensureDirectories] at h
  cases hensure : d.ensureDirectory faults p now with
  | ok d₁ =>
    rw [hensure] at h
    obtain ⟨rfl, rfl⟩ := Prod.mk.inj h
    exact .here hensure
  | error e =>
    rw [hensure] at h
    dsimp only at h
    split_ifs at h
    · cases hup : d.ensureDirectories faults p.parent now with
      | mk d₁ made =>
        rw [hup] at h
        cases made with
        | error e' =>
          obtain ⟨rfl, rfl⟩ := Prod.mk.inj h
          exact .above ⟨e, hensure⟩ hup
        | ok =>
          dsimp only at h
          cases hagain : d₁.ensureDirectory faults p now with
          | ok d₂ =>
            rw [hagain] at h
            obtain ⟨rfl, rfl⟩ := Prod.mk.inj h
            exact .again ⟨e, hensure⟩ hup hagain
          | error e' =>
            rw [hagain] at h
            obtain ⟨rfl, rfl⟩ := Prod.mk.inj h
            exact .lost ⟨e, hensure⟩ hup hagain
    · obtain ⟨rfl, rfl⟩ := Prod.mk.inj h
      exact .stuck hensure

theorem ensureDirectories_again {d₁ d₂ : Disk} (hp : p.isAddressable = true)
    (hparts : p.parts ≠ []) (hl : d.locate false p = .error .noEntry)
    (hup : d.ensureDirectories faults p.parent now = (d₁, .ok ()))
    (hagain : d₁.ensureDirectory faults p now = .ok d₂) :
    d.ensureDirectories faults p now = (d₂, .ok ()) := by
  have hfind : d.find false p = .error (.system ⟨.noEntry, [p.toText]⟩) := by
    rw [find_eq hp, hl]
    rfl
  have hensure : d.ensureDirectory faults p now =
      .error (.system ⟨.noEntry, [p.toText]⟩) := by
    simp [ensureDirectory, makeDirectory, hfind]
  rw [ensureDirectories, hensure]
  simp [hparts, hup, hagain]

theorem ensureDirectories_long (hp : p.isAddressable = true)
    (hfaults : faults .checkDirectory = none)
    (hlong : Walk.maxPath < Walk.byteLength p.toText) :
    d.ensureDirectories faults p now = (d, .error (.system ⟨.nameTooLong, [p.toText]⟩)) := by
  have hfind : ∀ follow, d.find follow p = .error (.system ⟨.nameTooLong, [p.toText]⟩) := by
    intro follow
    rw [find_eq hp, locate, if_pos hlong]
    rfl
  have hensure : d.ensureDirectory faults p now =
      .error (.system ⟨.nameTooLong, [p.toText]⟩) := by
    simp [ensureDirectory, makeDirectory, hfind, isDirectory, status, Faults.guard, hfaults]
  rw [ensureDirectories, hensure]
  simp

theorem ensureDirectories_leads {base : Location} (hp : p.isAddressable = true)
    (hleads : Leads d true Walk.maxLinks (d.start p) p.parts base) {m : Instant}
    (hbase : d.node? base = some (.directory m)) (now : Instant) :
    ∃ r, d.ensureDirectories Faults.none p now = (d, r) := by
  by_cases hlong : Walk.maxPath < Walk.byteLength p.toText
  · exact ⟨_, ensureDirectories_long hp rfl hlong⟩
  · have hstatus := status_of_leads hp (Nat.not_lt.mp hlong) hleads hbase
    exact ⟨_, ensureDirectories_there hp rfl hstatus⟩

theorem Frame.none_of_none (h : Frame Nowhere d d') {l : Location} (hl : d'.node? l = none) :
    d.node? l = none := by
  cases hnode : d.node? l with
  | none => rfl
  | some n =>
    cases n with
    | file bytes m => cases hl.symm.trans ((h.file l id bytes m).mpr hnode)
    | directory m =>
      obtain ⟨m', hm'⟩ := h.directory l m hnode
      cases hl.symm.trans hm'
    | link t => cases hl.symm.trans ((h.link l t).mpr hnode)

/-- What can be made on the way: the places where nothing stands. -/
def Missing (d : Disk) (base : Location) (names : List Text) (l : Location) : Prop :=
  d.node? l = none ∧ ∃ k < names.length, l = base ++ names.take (k + 1)

theorem Missing.append {base l : Location} {names : List Text} {name : Text}
    (h : d.Missing base names l) : d.Missing base (names ++ [name]) l := by
  obtain ⟨hnone, k, hk, rfl⟩ := h
  exact ⟨hnone, k, by simp; omega, by rw [List.take_append_of_le_length hk]⟩

theorem missing_last {base : Location} {names : List Text} {name : Text}
    (h : d.node? (base ++ (names ++ [name])) = none) :
    d.Missing base (names ++ [name]) (base ++ (names ++ [name])) :=
  ⟨h, names.length, by simp, by rw [List.take_of_length_le (by simp)]⟩

theorem not_missing_last {base : Location} {names : List Text} {name : Text} :
    ¬d.Missing base names (base ++ (names ++ [name])) := by
  rintro ⟨-, k, hk, hsame⟩
  have hlength := congrArg List.length (List.append_cancel_left hsame)
  simp at hlength
  omega

namespace Goes

variable {d₁ d₂ : Disk} {base : Location} {names : List Text} {name : Text}

theorem ensureDirectories_base (h : d.Goes p base []) (hp : p.isAddressable = true)
    (hshort : Walk.byteLength p.toText ≤ Walk.maxPath) (now : Instant) :
    d.ensureDirectories Faults.none p now = (d, .ok ()) := by
  obtain ⟨front, hparts, hleads⟩ := h.front
  obtain ⟨m, hm⟩ := h.there
  rw [List.append_nil] at hparts
  exact ensureDirectories_there hp rfl (status_of_leads hp hshort (hparts ▸ hleads) hm)

theorem ensureDirectories_base_same (h : d.Goes p base []) (hp : p.isAddressable = true)
    (now : Instant) : (d.ensureDirectories Faults.none p now).1 = d := by
  obtain ⟨front, hparts, hleads⟩ := h.front
  obtain ⟨m, hm⟩ := h.there
  rw [List.append_nil] at hparts
  obtain ⟨r, hr⟩ := ensureDirectories_leads hp (hparts ▸ hleads) hm now
  rw [hr]

/-! ### What is changed -/

theorem changes_ensureDirectory (h : d.Goes p base names) (hnames : names ≠ [])
    (hensure : d.ensureDirectory faults p now = .ok d') :
    d' = d ∨ d.node? (base ++ names) = none ∧ Changes (· = base ++ names) d d' := by
  rcases ensureDirectory_ok hensure with hsame | ⟨l, hl, hnone, rfl⟩
  · exact .inl hsame
  · obtain rfl := h.place hnames (find_iff.mp hl).2
    exact .inr ⟨hnone, changes_enter d _ _ now⟩

theorem changes_after (h : d.Goes p base (names ++ [name])) (hframe : Frame Nowhere d d₁)
    (hup : Changes (d.Missing base names) d d₁)
    (hensure : d₁.ensureDirectory faults p now = .ok d₂) :
    Changes (d.Missing base (names ++ [name])) d d₂ := by
  have hfirst : Changes (d.Missing base (names ++ [name])) d d₁ := hup.mono fun _ => .append
  rcases (h.stable hframe.stable).changes_ensureDirectory (by simp) hensure with
    rfl | ⟨hnone, hlast⟩
  · exact hfirst
  · refine hfirst.trans (hlast.mono ?_)
    rintro _ rfl
    exact missing_last (hframe.none_of_none hnone)

/-- Making the directories of a path changes nothing but the missing places on the way, and the last
place only if all are made. -/
theorem changes_ensureDirectories (h : d.Goes p base names) (hp : p.isAddressable = true)
    (now : Instant) :
    Changes (d.Missing base names) d (d.ensureDirectories Faults.none p now).1 ∧
      (names ≠ [] → d.node? (base ++ names) = none →
        (d.ensureDirectories Faults.none p now).1.node? (base ++ names) ≠ none →
        (d.ensureDirectories Faults.none p now).2 = .ok ()) := by
  induction names using List.reverseRecOn generalizing p with
  | nil =>
    rw [h.ensureDirectories_base_same hp]
    exact ⟨.refl d, fun hno => absurd rfl hno⟩
  | append_singleton names name ih =>
    have hgood := FilePath.isAddressable_parent hp
    obtain ⟨hchanges, -⟩ := ih h.parent hgood
    cases hmade : d.ensureDirectories Faults.none p now with
    | mk d' r =>
      cases makes_of hmade with
      | here hensure =>
        exact ⟨h.changes_after (.refl d) (.refl d) hensure, fun _ _ _ => rfl⟩
      | stuck => exact ⟨.refl d, fun _ hnone hsome => absurd hnone hsome⟩
      | above _ hup =>
        rw [hup] at hchanges
        refine ⟨hchanges.mono fun _ => .append, fun _ hnone hsome => absurd ?_ hsome⟩
        exact (hchanges.kept not_missing_last).none hnone
      | again _ hup hensure =>
        rw [hup] at hchanges
        have hframe := (ensureDirectories_spec hgood hup).1
        exact ⟨h.changes_after hframe hchanges hensure, fun _ _ _ => rfl⟩
      | lost _ hup =>
        rw [hup] at hchanges
        refine ⟨hchanges.mono fun _ => .append, fun _ hnone hsome => absurd ?_ hsome⟩
        exact (hchanges.kept not_missing_last).none hnone

/-! ### Whether all are made -/

/-- Nothing but directories stands on the way. -/
def Clear (d : Disk) (base : Location) (names : List Text) : Prop :=
  ∀ k n, k < names.length → d.node? (base ++ names.take (k + 1)) = some n → ∃ m, n = .directory m

theorem clear_of_frame (h : d.Goes p base names) (hclear : Clear d base names)
    (hframe : Frame Nowhere d d') : Clear d' base names := by
  intro k n hk hn
  cases n with
  | directory m => exact ⟨m, rfl⟩
  | file bytes m => exact hclear k _ hk ((hframe.file _ id bytes m).mp hn)
  | link t => exact absurd ((hframe.link _ t).mp hn) (h.linkless k t)

theorem Clear.above (h : Clear d base (names ++ [name])) : Clear d base names := by
  intro k n hk hn
  apply h k n (by simp; omega)
  rwa [List.take_append_of_le_length (by omega)]

theorem Clear.last (h : Clear d base (names ++ [name])) {n : Node}
    (hn : d.node? (base ++ (names ++ [name])) = some n) : ∃ m, n = .directory m := by
  apply h names.length n (by simp)
  rwa [List.take_of_length_le (by simp)]

theorem ensureDirectory_here (h : d.Goes p base names) (hp : p.isAddressable = true)
    (hnames : names ≠ []) (hl : d.locate false p = .ok (base ++ names))
    (hnode : ∀ n, d.node? (base ++ names) = some n → ∃ m, n = .directory m) (now : Instant) :
    ∃ d', d.ensureDirectory Faults.none p now = .ok d' := by
  have hfind : d.find false p = .ok (base ++ names) := (find_ok_iff hp).mpr hl
  cases hn : d.node? (base ++ names) with
  | none =>
    exact ⟨d.enter (base ++ names) (.directory now) now, by
      simp [ensureDirectory, makeDirectory, hfind, hn]⟩
  | some n =>
    obtain ⟨m, rfl⟩ := hnode n hn
    have hstatus : d.status p = .ok (.directory m) :=
      (status_ok_iff hp).mpr ⟨_, (h.locate_follow hnames).trans hl, hn⟩
    have hmake : d.makeDirectory p now = .error (.system ⟨.alreadyExists, [p.toText]⟩) := by
      simp [makeDirectory, hfind, hn]
    exact ⟨d, by simp [ensureDirectory, hmake, isDirectory, Faults.guard, Faults.none, hstatus,
      Node.isDirectory]⟩

theorem locate_last (h : d.Goes p base (names ++ [name])) (hp : p.isAddressable = true)
    (hshort : Walk.byteLength p.toText ≤ Walk.maxPath)
    (hshorts : ∀ part ∈ names ++ [name], Walk.byteLength part ≤ Walk.maxName)
    (hclear : Clear d base (names ++ [name]))
    (hthere : ∃ m, d.status p.parent = .ok (.directory m)) :
    d.locate false p = .ok (base ++ (names ++ [name])) := by
  obtain ⟨-, hshorts', hway⟩ := h.parent.way_of_status (FilePath.isAddressable_parent hp) hthere
  obtain ⟨links, hlocate⟩ := h.locate (by simp)
  have hnode : ∀ n, d.node? (base ++ names ++ [name]) = some n → ∃ m, n = .directory m := by
    rw [List.append_assoc]
    exact fun n => hclear.last
  rw [hlocate, if_neg (Nat.not_lt.mpr hshort), Walk.walk_through h.parent.plain hshorts' hway,
    Walk.walk_last (h.plain name (by simp)) (hshorts name (by simp)) hnode, List.append_assoc]

theorem ensureDirectories_of_clear (h : d.Goes p base names) (hp : p.isAddressable = true)
    (hshort : Walk.byteLength p.toText ≤ Walk.maxPath)
    (hshorts : ∀ name ∈ names, Walk.byteLength name ≤ Walk.maxName) (hclear : Clear d base names)
    (now : Instant) : (d.ensureDirectories Faults.none p now).2 = .ok () := by
  induction names using List.reverseRecOn generalizing p with
  | nil => rw [h.ensureDirectories_base hp hshort]
  | append_singleton names name ih =>
    have hne : names ++ [name] ≠ [] := by simp
    obtain ⟨links, hlocate⟩ := h.locate hne
    have hl := hlocate false
    rw [if_neg (Nat.not_lt.mpr hshort)] at hl
    rcases Walk.walk_way h.plain hshorts hclear with hwalk | hwalk
    · obtain ⟨d', hensure⟩ :=
        h.ensureDirectory_here hp hne (hl.trans hwalk) (fun n => hclear.last) now
      rw [ensureDirectories, hensure]
    · -- something above is missing, and once it is made nothing is
      have hgood := FilePath.isAddressable_parent hp
      have hup := ih h.parent hgood (FilePath.short_of_child (h.child_parent ▸ hshort))
        (fun name hname => hshorts name (List.mem_append_left _ hname)) hclear.above
      cases hmade : d.ensureDirectories Faults.none p.parent now with
      | mk d₁ r =>
        obtain ⟨hframe, hthere, -⟩ := ensureDirectories_spec hgood hmade
        rw [hmade] at hup
        obtain rfl : r = .ok () := hup
        have h₁ := h.stable hframe.stable
        have hclear₁ := h.clear_of_frame hclear hframe
        have hl₁ := h₁.locate_last hp hshort hshorts hclear₁ (hthere rfl rfl)
        obtain ⟨d₂, hagain⟩ := h₁.ensureDirectory_here hp hne hl₁ (fun n => hclear₁.last) now
        rw [ensureDirectories_again hp h.parts_ne_nil (hl.trans hwalk) hmade hagain]

/-- The directories of a path can be made unless the path or a name is too long, or something else
stands on the way. -/
theorem ensureDirectories_ok_iff (h : d.Goes p base names) (hp : p.isAddressable = true)
    (now : Instant) : (d.ensureDirectories Faults.none p now).2 = .ok () ↔
      Walk.byteLength p.toText ≤ Walk.maxPath ∧
        (∀ name ∈ names, Walk.byteLength name ≤ Walk.maxName) ∧ Clear d base names := by
  constructor
  · intro hok
    obtain ⟨hframe, hthere, -⟩ : Frame Nowhere d (d.ensureDirectories Faults.none p now).1 ∧ _ :=
      ensureDirectories_spec hp rfl
    obtain ⟨hshort, hshorts, hway⟩ := (h.stable hframe.stable).way_of_status hp (hthere hok rfl)
    refine ⟨hshort, hshorts, fun k n hk hn => ?_⟩
    obtain ⟨m, hm⟩ := hway k hk
    cases n with
    | directory m => exact ⟨m, rfl⟩
    | file bytes m' => cases hm.symm.trans ((hframe.file _ id bytes m').mpr hn)
    | link t => exact absurd hn (h.linkless k t)
  · rintro ⟨hshort, hshorts, hclear⟩
    exact h.ensureDirectories_of_clear hp hshort hshorts hclear now

end Goes

end Disk

end CatalogCache
