import TradingEdge.Program.ContextLoader

/-!
# Where the context loader reads

The id of a reference goes into two file names and a glob pattern.  A file name is joined to its
directory and resolved, so what a strategy can read is decided by where its two paths lead
(`strategy_confined_iff`); the glob pattern is resolved against the disk, and what is read is the
first of the selected paths (`mem_reads_loadAdr`).  As long as the parts of the pattern do not go up
further than they have gone down every selected path stays below the directory
(`resolve_of_mem_select`).
-/

set_option autoImplicit false

namespace TradingEdge.Analysis

open TradingEdge.Library TradingEdge.Model TradingEdge.Program

/-! ## Reads -/

/-- The location lies below the directory. -/
def Below (dir loc : Location) : Prop := ∃ names, names ≠ [] ∧ loc = dir ++ names

/-- The path leads to a file that can be read. -/
def ReadsAt (s : Surroundings) (p : PurePath) (loc : Location) : Prop :=
  s.disk.locate s.cwd p = some loc ∧ ∃ text, s.disk.fileAt loc = some (.ok text)

/-- What two loads read, one after the other. -/
theorem mem_reads_andThen {α β : Type} {x : Loading α} {f : α → Loading β} {loc : Location} :
    loc ∈ (x >>= f).reads ↔ loc ∈ x.reads ∨ ∃ a, x.result = .ok a ∧ loc ∈ (f a).reads := by
  change loc ∈ (x.andThen f).reads ↔ _
  unfold Loading.andThen
  cases hx : x.result with
  | error message => simp
  | ok a => simp

/-- Reading a path reads where it leads, if a file is there. -/
theorem mem_reads_readText {s : Surroundings} {p : PurePath} {loc : Location} :
    loc ∈ (s.readText p).reads ↔ ReadsAt s p loc := by
  unfold Surroundings.readText ReadsAt
  cases s.disk.locate s.cwd p with
  | none => simp [Loading.raise]
  | some found =>
    dsimp only
    cases hfile : s.disk.fileAt found with
    | none =>
      simp only [Loading.raise, List.not_mem_nil, Option.some.injEq, false_iff, not_and]
      rintro rfl ⟨text, htext⟩
      rw [hfile] at htext
      cases htext
    | some content =>
      cases content with
      | error message =>
        simp only [Loading.raise, List.not_mem_nil, Option.some.injEq, false_iff, not_and]
        rintro rfl ⟨text, htext⟩
        rw [hfile] at htext
        cases htext
      | ok text =>
        simp only [List.mem_singleton, Option.some.injEq]
        constructor
        · rintro rfl
          exact ⟨rfl, text, hfile⟩
        · rintro ⟨rfl, -⟩
          rfl

/-- So does a part of the context that is a file. -/
theorem mem_reads_filePart {s : Surroundings} {label : List Char} {p : PurePath} {loc : Location} :
    loc ∈ (filePart s label p).reads ↔ ReadsAt s p loc := by
  unfold filePart
  split
  · rw [mem_reads_andThen, mem_reads_readText]
    exact or_iff_left fun ⟨_, _, h⟩ => List.not_mem_nil h
  · next hno =>
    refine iff_of_false List.not_mem_nil ?_
    rintro ⟨hloc, text, htext⟩
    exact hno (by rw [Surroundings.isFile, Disk.isFile, hloc, Option.bind_some, htext]; rfl)

/-! ## Strategies -/

/-- The directories of the strategies. -/
def strategyDirs (cwd : Location) : List Location :=
  [(PurePath.ofText "config/strategies".toList).resolve cwd,
    (PurePath.ofText "src/trading/strategies".toList).resolve cwd]

/-- The paths that the id of a strategy spells. -/
def spelledPaths (includeSource : Bool) (ref : ContextRef) : List PurePath :=
  if includeSource then [tomlPath ref, srcPath ref] else [tomlPath ref]

/-- Every file that is read lies below one of the directories. -/
def Confined (dirs : List Location) (reads : List Location) : Prop :=
  ∀ loc ∈ reads, ∃ dir ∈ dirs, Below dir loc

/-- The surroundings with another disk. -/
def onDisk (s : Surroundings) (disk : Disk) : Surroundings := { s with disk := disk }

/-- A strategy reads along its spelled paths. -/
theorem mem_reads_loadStrategy {s : Surroundings} {ref : ContextRef} {loc : Location}
    (h : loc ∈ (loadStrategy s ref).reads) :
    ∃ p ∈ spelledPaths s.includeSource ref, ReadsAt s p loc := by
  have hreads : loc ∈ (strategyText s ref).reads := by
    rcases mem_reads_andThen.mp h with h | ⟨_, _, h⟩
    · exact h
    · exact absurd h List.not_mem_nil
  unfold spelledPaths
  rcases mem_reads_andThen.mp hreads with h | ⟨params, -, h⟩
  · have htoml := mem_reads_filePart.mp h
    refine ⟨tomlPath ref, ?_, htoml⟩
    split
    · exact List.mem_cons_self
    · exact List.mem_cons_self
  · rcases mem_reads_andThen.mp h with h | ⟨_, _, h⟩
    · unfold sourcePart at h
      split at h
      · next hsource =>
        rw [if_pos hsource]
        exact ⟨srcPath ref, by simp, mem_reads_filePart.mp h⟩
      · exact absurd h List.not_mem_nil
    · exact absurd h List.not_mem_nil

/-- Where every file can be read, a part of a strategy does not raise. -/
theorem exists_result_filePart (s : Surroundings) (label : List Char) (p : PurePath)
    (h : ∀ f ∈ s.disk.files, ∃ text, f.2 = .ok text) :
    ∃ part, (filePart s label p).result = .ok part := by
  unfold filePart
  split
  · next hfile =>
    rw [Surroundings.isFile, Disk.isFile] at hfile
    obtain ⟨content, hcontent⟩ := Option.isSome_iff_exists.mp hfile
    obtain ⟨loc, hloc, hat⟩ := Option.bind_eq_some_iff.mp hcontent
    obtain ⟨f, hf, rfl⟩ := Option.map_eq_some_iff.mp hat
    obtain ⟨text, htext⟩ := h f (List.mem_of_find?_eq_some hf)
    have hread : (s.readText p).result = .ok text := by
      rw [htext] at hat
      unfold Surroundings.readText
      rw [hloc]
      dsimp only
      rw [hat]
    change ∃ part, ((s.readText p).andThen _).result = .ok part
    unfold Loading.andThen
    rw [hread]
    exact ⟨_, rfl⟩
  · exact ⟨_, rfl⟩

/-- Where every file is a text, all its spelled paths are read. -/
theorem mem_reads_loadStrategy_of {s : Surroundings} {ref : ContextRef} {loc : Location}
    {p : PurePath} (hp : p ∈ spelledPaths s.includeSource ref) (hloc : ReadsAt s p loc)
    (h : ∀ f ∈ s.disk.files, ∃ text, f.2 = .ok text) : loc ∈ (loadStrategy s ref).reads := by
  refine mem_reads_andThen.mpr (.inl (mem_reads_andThen.mpr ?_))
  obtain ⟨params, hparams⟩ := exists_result_filePart s "params toml".toList (tomlPath ref) h
  have hsrc : s.includeSource = true → p = srcPath ref → loc ∈ (sourcePart s ref).reads := by
    rintro hsource rfl
    unfold sourcePart
    rw [if_pos hsource]
    exact mem_reads_filePart.mpr hloc
  unfold spelledPaths at hp
  split at hp
  · next hsource =>
    rcases List.mem_cons.mp hp with rfl | hp
    · exact .inl (mem_reads_filePart.mpr hloc)
    · have hread := hsrc hsource (List.mem_singleton.mp hp)
      exact .inr ⟨params, hparams, mem_reads_andThen.mpr (.inl hread)⟩
  · obtain rfl := List.mem_singleton.mp hp
    exact .inl (mem_reads_filePart.mpr hloc)

/-- The path ends below one of the directories, or it goes through its own end as a directory, where
no file can be. -/
def EndsWithin (cwd : Location) (dirs : List Location) (p : PurePath) : Prop :=
  (∃ dir ∈ dirs, Below dir (p.resolve cwd)) ∨
    p.resolve cwd ∈ PurePath.walk (p.start cwd) p.parts

/-- A step leads to a proper location. -/
theorem proper_goTo {loc : Location} (h : ['.', '.'] ∉ loc) (c : FileName) :
    ['.', '.'] ∉ PurePath.goTo loc c := by
  unfold PurePath.goTo
  split
  · exact fun hmem => h (List.mem_of_mem_dropLast hmem)
  · next hne =>
    rw [List.mem_append, List.mem_singleton, not_or]
    exact ⟨h, Ne.symm hne⟩

/-- So does a walk, at each of its steps. -/
theorem proper_walk {loc : Location} (h : ['.', '.'] ∉ loc) (cs : List FileName) :
    (∀ l ∈ PurePath.walk loc cs, ['.', '.'] ∉ l) ∧ ['.', '.'] ∉ cs.foldl PurePath.goTo loc := by
  induction cs generalizing loc with
  | nil => exact ⟨fun l hl => absurd hl List.not_mem_nil, h⟩
  | cons c cs ih =>
    obtain ⟨hwalk, hend⟩ := ih (proper_goTo h c)
    exact ⟨List.forall_mem_cons.mpr ⟨h, hwalk⟩, hend⟩

/-- A path starts at a proper location. -/
theorem proper_start (s : Surroundings) (p : PurePath) : ['.', '.'] ∉ p.start s.cwd := by
  unfold PurePath.start
  split
  · exact s.cwd_proper
  · exact List.not_mem_nil

/-- The disk of a path: the directories it goes through, and a file where it ends. -/
def diskOf (s : Surroundings) (p : PurePath)
    (h : p.resolve s.cwd ∉ PurePath.walk (p.start s.cwd) p.parts) : Disk where
  dirs := PurePath.walk (p.start s.cwd) p.parts
  files := [(p.resolve s.cwd, .ok [])]
  proper := by
    obtain ⟨hwalk, hend⟩ := proper_walk (proper_start s p) p.parts
    intro loc hloc
    rcases List.mem_append.mp hloc with hloc | hloc
    · exact hwalk loc hloc
    · obtain rfl := List.mem_singleton.mp hloc
      exact hend
  apart := List.forall_mem_singleton.mpr h

/-- **Strategies.**  Whatever the disk, a strategy is read below the directories, if and only if
each path that its id spells ends there. -/
theorem strategy_confined_iff (s : Surroundings) (ref : ContextRef) :
    (∀ disk, Confined (strategyDirs s.cwd) (loadStrategy (onDisk s disk) ref).reads) ↔
      ∀ p ∈ spelledPaths s.includeSource ref, EndsWithin s.cwd (strategyDirs s.cwd) p := by
  constructor
  · intro h p hp
    by_cases hwalk : p.resolve s.cwd ∈ PurePath.walk (p.start s.cwd) p.parts
    · exact .inr hwalk
    · have hreads : ReadsAt (onDisk s (diskOf s p hwalk)) p (p.resolve s.cwd) := by
        refine ⟨Disk.locate_eq_some_iff.mpr ⟨fun l hl => hl, rfl⟩, [], ?_⟩
        change (List.find? _ [_]).map _ = _
        rw [List.find?_singleton, if_pos (decide_eq_true rfl)]
        rfl
      refine .inl (h (diskOf s p hwalk) _ (mem_reads_loadStrategy_of hp hreads ?_))
      intro f hf
      obtain rfl := List.mem_singleton.mp hf
      exact ⟨[], rfl⟩
  · intro h disk loc hloc
    obtain ⟨p, hp, hlocate, text, htext⟩ := mem_reads_loadStrategy hloc
    obtain ⟨hdirs, rfl⟩ := Disk.locate_eq_some_iff.mp hlocate
    rcases h p hp with hbelow | hwalk
    · exact hbelow
    · -- a file is no directory of the path
      obtain ⟨f, hf, -⟩ := Option.map_eq_some_iff.mp htext
      have hkey := List.find?_some hf
      have happart := disk.apart f (List.mem_of_find?_eq_some hf)
      rw [of_decide_eq_true hkey] at happart
      exact absurd (hdirs _ hwalk) happart

/-! ## Decision records -/

/-- The directory of the decision records. -/
def adrDir (cwd : Location) : Location := (PurePath.ofText "Docs/decisions".toList).resolve cwd

/-- The first, in their order, of the paths that the pattern selects on the disk. -/
def FirstSelected (s : Surroundings) (ref : ContextRef) (p : PurePath) : Prop :=
  ∃ found, s.disk.glob s.cwd (.ofText "Docs/decisions".toList) (adrPattern ref) = .ok found ∧
    p ∈ (sortedPaths found).head?

/-- A decision record reads the first of the selected paths. -/
theorem mem_reads_loadAdr {s : Surroundings} {ref : ContextRef} {loc : Location} :
    loc ∈ (loadAdr s ref).reads ↔ ∃ p, FirstSelected s ref p ∧ ReadsAt s p loc := by
  have htext : loc ∈ (loadAdr s ref).reads ↔ loc ∈ (adrText s ref).reads := by
    refine mem_reads_andThen.trans (or_iff_left ?_)
    rintro ⟨_, _, h⟩
    exact List.not_mem_nil h
  rw [htext]
  unfold adrText FirstSelected
  rw [mem_reads_andThen]
  change loc ∈ [] ∨ (∃ found, s.disk.glob _ _ _ = .ok found ∧ _) ↔ _
  rw [or_iff_right List.not_mem_nil]
  constructor
  · rintro ⟨found, hfound, h⟩
    split at h
    · exact absurd h List.not_mem_nil
    · next first rest hsorted =>
      refine ⟨first, ⟨found, hfound, by rw [hsorted]; rfl⟩, ?_⟩
      rcases mem_reads_andThen.mp h with h | ⟨_, _, h⟩
      · exact mem_reads_readText.mp h
      · exact absurd h List.not_mem_nil
  · rintro ⟨p, ⟨found, hfound, hp⟩, hread⟩
    refine ⟨found, hfound, ?_⟩
    split
    · next hsorted =>
      rw [hsorted] at hp
      cases hp
    · next first rest hsorted =>
      rw [hsorted] at hp
      obtain rfl := Option.some_inj.mp hp
      exact mem_reads_andThen.mpr (.inl (mem_reads_readText.mpr hread))

/-- **Decision records.**  A record is read below its directory, if and only if the first selected
path is no file outside of it. -/
theorem adr_confined_iff (s : Surroundings) (ref : ContextRef) :
    Confined [adrDir s.cwd] (loadAdr s ref).reads ↔
      ∀ p, FirstSelected s ref p → ∀ loc, ReadsAt s p loc → Below (adrDir s.cwd) loc := by
  constructor
  · intro h p hp loc hloc
    obtain ⟨dir, hdir, hbelow⟩ := h loc (mem_reads_loadAdr.mpr ⟨p, hp, hloc⟩)
    obtain rfl := List.mem_singleton.mp hdir
    exact hbelow
  · intro h loc hloc
    obtain ⟨p, hp, hread⟩ := mem_reads_loadAdr.mp hloc
    exact ⟨_, List.mem_singleton_self _, h p hp loc hread⟩

/-- The least number of names that parts of a pattern can be below where they began, if they do not
go up further than they have gone down; `**` can stand for no directory at all. -/
def leastDepth : ℕ → List FileName → Option ℕ
  | n, [] => some n
  | n, c :: cs =>
      if c = ['.', '.'] then
        if n = 0 then none else leastDepth (n - 1) cs
      else if c = ['*', '*'] then leastDepth n cs
      else leastDepth (n + 1) cs

/-- The three kinds of parts; one that goes up is no wildcard. -/
theorem globPart_cases {c : FileName} {part : GlobPart} (h : GlobPart.ofText c = some part) :
    (c = ['*', '*'] ∧ part = .recursive) ∨ (c ≠ ['*', '*'] ∧ part = .precise c) ∨
      (c ≠ ['*', '*'] ∧ c ≠ ['.', '.'] ∧ part = .wildcard c) := by
  unfold GlobPart.ofText at h
  split at h
  · next hc => exact .inl ⟨hc, (Option.some_inj.mp h).symm⟩
  · next hc =>
    split at h
    · cases h
    · split at h
      · next hany =>
        refine .inr (.inr ⟨hc, ?_, (Option.some_inj.mp h).symm⟩)
        rintro rfl
        revert hany
        decide
      · exact .inr (.inl ⟨hc, (Option.some_inj.mp h).symm⟩)

/-- The names of a directory are proper. -/
theorem ne_of_mem_names {d : Disk} {loc : Location} {name : FileName} (h : name ∈ d.names loc) :
    name ≠ ['.', '.'] := by
  unfold Disk.names at h
  rw [List.mem_dedup, List.mem_filterMap] at h
  obtain ⟨l, hl, hlast⟩ := h
  rintro rfl
  exact d.proper l (List.mem_filter.mp hl).1 (List.mem_of_getLast? hlast)

/-- **Selection.**  From a place some names below a directory, the paths that a pattern selects stay
below it, as far as the parts do not go up further than that. -/
theorem resolve_of_mem_select {d : Disk} {cwd dir : Location} {cs : List FileName}
    {parts : List GlobPart} (hparts : cs.mapM GlobPart.ofText = some parts) {p q : PurePath}
    (hq : q ∈ d.select cwd parts p) {names : List FileName} (hp : p.resolve cwd = dir ++ names)
    {n m : ℕ} (hn : n ≤ names.length) (hm : leastDepth n cs = some m) :
    ∃ names', q.resolve cwd = dir ++ names' ∧ m ≤ names'.length := by
  induction cs generalizing parts p names n with
  | nil =>
    rw [List.mapM_nil] at hparts
    cases hparts
    rw [Disk.select_nil, List.mem_singleton] at hq
    cases hm
    exact ⟨names, hq ▸ hp, hn⟩
  | cons c cs ih =>
    rw [List.mapM_cons] at hparts
    obtain ⟨part, hpart, hparts⟩ := Option.bind_eq_some_iff.mp hparts
    obtain ⟨rest, hrest, hparts⟩ := Option.bind_eq_some_iff.mp hparts
    cases hparts
    -- a name of a directory is one level down
    have hdown : ∀ name : FileName, name ≠ ['.', '.'] →
        PurePath.resolve cwd ⟨p.root, p.parts ++ [name]⟩ = dir ++ (names ++ [name]) := by
      intro name hname
      rw [PurePath.resolve_append, List.foldl_cons, List.foldl_nil, hp, PurePath.goTo_of_ne hname,
        List.append_assoc]
    have hlength : ∀ name : FileName, n + 1 ≤ (names ++ [name]).length := by
      intro name
      rw [List.length_append, List.length_singleton]
      omega
    rcases globPart_cases hpart with ⟨rfl, rfl⟩ | ⟨hstars, rfl⟩ | ⟨hstars, hup, rfl⟩
    · rw [leastDepth, if_neg (by decide), if_pos rfl] at hm
      obtain ⟨loc, tail, hloc, hdir, hq⟩ := Disk.mem_select_recursive hq
      have hproper : ['.', '.'] ∉ tail := fun hmem =>
        d.proper _ (List.mem_append_left _ hdir) (List.mem_append_right _ hmem)
      have htail : PurePath.resolve cwd ⟨p.root, p.parts ++ tail⟩ = dir ++ (names ++ tail) := by
        rw [PurePath.resolve_append, PurePath.foldl_goTo_of_proper hproper, hp, List.append_assoc]
      refine ih hrest hq htail ?_ hm
      rw [List.length_append]
      omega
    · have hq := Disk.mem_select_precise hq
      by_cases hup : c = ['.', '.']
      · subst hup
        rw [leastDepth, if_pos rfl] at hm
        split at hm
        · cases hm
        · next hpos =>
          have hne : names ≠ [] := by
            rintro rfl
            exact hpos (Nat.le_zero.mp hn)
          have hlast : PurePath.resolve cwd ⟨p.root, p.parts ++ [['.', '.']]⟩ =
              dir ++ names.dropLast := by
            rw [PurePath.resolve_append, List.foldl_cons, List.foldl_nil, hp, PurePath.goTo,
              if_pos rfl, List.dropLast_append_of_ne_nil hne]
          refine ih hrest hq hlast ?_ hm
          rw [List.length_dropLast]
          omega
      · rw [leastDepth, if_neg hup, if_neg hstars] at hm
        exact ih hrest hq (hdown c hup) (hlength c) hm
    · rw [leastDepth, if_neg hup, if_neg hstars] at hm
      obtain ⟨loc, name, -, hname, hq⟩ := Disk.mem_select_wildcard hq
      exact ih hrest hq (hdown name (ne_of_mem_names hname)) (hlength name) hm

/-- `glob` refuses the pattern on every disk: it starts at the root, or has `**` inside a part. -/
def PatternRefused (ref : ContextRef) : Prop :=
  (PurePath.ofText (adrPattern ref)).root ≠ [] ∨
    (PurePath.ofText (adrPattern ref)).parts.mapM GlobPart.ofText = none

/-- The pattern is refused, or its parts never go up further than they have gone down, and end below
the directory. -/
def PatternStays (ref : ContextRef) : Prop :=
  PatternRefused ref ∨ ∃ m, leastDepth 0 (PurePath.ofText (adrPattern ref)).parts = some (m + 1)

/-- What the glob returns, of a pattern that it does not refuse. -/
theorem glob_eq_ok {d : Disk} {cwd : Location} {p : PurePath} {pattern : List Char}
    {found : List PurePath} (h : d.glob cwd p pattern = .ok found) :
    (PurePath.ofText pattern).root = [] ∧
      ∃ parts, (PurePath.ofText pattern).parts.mapM GlobPart.ofText = some parts ∧
        ∀ q ∈ found, q ∈ d.select cwd parts p := by
  unfold Disk.glob at h
  split at h
  · cases h
  · next hroot =>
    rw [not_not] at hroot
    split at h
    · cases h
    · next parts hparts =>
      cases h
      refine ⟨hroot, parts, hparts, ?_⟩
      intro q hq
      split at hq
      · exact hq
      · exact absurd hq List.not_mem_nil

/-- A pattern that stays below the directory selects only paths below it. -/
theorem adr_confined_of_stays (s : Surroundings) (ref : ContextRef) (h : PatternStays ref) :
    Confined [adrDir s.cwd] (loadAdr s ref).reads := by
  refine (adr_confined_iff s ref).mpr ?_
  rintro p ⟨found, hfound, hp⟩ loc ⟨hlocate, -⟩
  obtain rfl := (Disk.locate_eq_some_iff.mp hlocate).2
  obtain ⟨hroot, parts, hparts, hselect⟩ := glob_eq_ok hfound
  have hmem : p ∈ found := mem_sortedBy.mp (List.mem_of_head? hp)
  rcases h with (habsolute | hstars) | ⟨m, hm⟩
  · exact absurd hroot habsolute
  · rw [hparts] at hstars
    cases hstars
  · have hbase : PurePath.resolve s.cwd (.ofText "Docs/decisions".toList) = adrDir s.cwd ++ [] :=
      (List.append_nil _).symm
    obtain ⟨names, hnames, hlength⟩ :=
      resolve_of_mem_select hparts (hselect p hmem) hbase (Nat.zero_le _) hm
    exact ⟨names, List.ne_nil_of_length_pos (Nat.lt_of_lt_of_le m.succ_pos hlength), hnames⟩

/-! ## Ids -/

/-- **Confinement.**  What a strategy reads is below the directories on every disk, if and only if
its paths end there; what a decision record reads is on a disk, if and only if the first selected
path is no file outside, and it is on every disk if the pattern is refused, or does not go up further
than it has gone down. -/
theorem loaders_confined_iff (s : Surroundings) (ref : ContextRef) :
    ((∀ disk, Confined (strategyDirs s.cwd) (loadStrategy (onDisk s disk) ref).reads) ↔
        ∀ p ∈ spelledPaths s.includeSource ref, EndsWithin s.cwd (strategyDirs s.cwd) p) ∧
      (Confined [adrDir s.cwd] (loadAdr s ref).reads ↔
        ∀ p, FirstSelected s ref p → ∀ loc, ReadsAt s p loc → Below (adrDir s.cwd) loc) ∧
      (PatternStays ref →
        ∀ disk, Confined [adrDir s.cwd] (loadAdr (onDisk s disk) ref).reads) :=
  ⟨strategy_confined_iff s ref, adr_confined_iff s ref,
    fun h disk => adr_confined_of_stays (onDisk s disk) ref h⟩

/-- A text without a slash is a path of one part. -/
theorem ofText_of_no_slash {cs : List Char} (hslash : '/' ∉ cs) (hne : cs ≠ [])
    (hdot : cs ≠ ['.']) : PurePath.ofText cs = ⟨[], [cs]⟩ := by
  have hroot : PurePath.rootOf cs = [] := by
    cases cs with
    | nil => rfl
    | cons c cs =>
      have hc : c ≠ '/' := fun heq => hslash (heq ▸ List.mem_cons_self)
      unfold PurePath.rootOf
      split
      · next heq => exact absurd (List.cons.inj heq).1 hc
      · next heq => exact absurd (List.cons.inj heq).1 hc
      · next heq => exact absurd (List.cons.inj heq).1 hc
      · rfl
  rw [PurePath.ofText, hroot, List.splitOn_eq_singleton hslash, List.filter_singleton,
    decide_eq_true ⟨hne, hdot⟩]
  rfl

/-- A text is none that ends otherwise. -/
theorem ne_of_getLast? {cs : List Char} {c : Char} (h : cs.getLast? = some c) (ds : List Char)
    (hds : ds.getLast? ≠ some c) : cs ≠ ds := by
  rintro rfl
  exact hds h

/-- A single name is a file of the directory it is joined to. -/
theorem below_joinpath (cwd : Location) (dir : PurePath) {cs : List Char} {c : Char}
    (hslash : '/' ∉ cs) (hlast : cs.getLast? = some c) (hc : c ≠ '.') :
    Below (dir.resolve cwd) ((dir.joinpath (.ofText cs)).resolve cwd) := by
  have hdots : ∀ ds : List Char, (∀ d ∈ ds.getLast?, d = '.') → cs ≠ ds := fun ds hds =>
    ne_of_getLast? hlast ds fun heq => hc (hds c heq)
  have hne : cs ≠ [] := hdots [] (by simp)
  have hdot : cs ≠ ['.'] := hdots ['.'] (by simp)
  have hup : cs ≠ ['.', '.'] := hdots ['.', '.'] (by simp)
  rw [ofText_of_no_slash hslash hne hdot, PurePath.joinpath, if_pos rfl]
  refine ⟨[cs], List.cons_ne_nil _ _, ?_⟩
  rw [PurePath.resolve_append, List.foldl_cons, List.foldl_nil, PurePath.goTo_of_ne hup]

/-- **A name is confined.**  An id without a slash is read below the directories, whatever the
disk, the settings and the other characters of the id. -/
theorem confined_of_no_slash (s : Surroundings) (ref : ContextRef) (h : '/' ∉ ref.id.toList) :
    (∀ disk, Confined (strategyDirs s.cwd) (loadStrategy (onDisk s disk) ref).reads) ∧
      ∀ disk, Confined [adrDir s.cwd] (loadAdr (onDisk s disk) ref).reads := by
  constructor
  · have htoml : Below ((PurePath.ofText "config/strategies".toList).resolve s.cwd)
        ((tomlPath ref).resolve s.cwd) := by
      refine below_joinpath s.cwd _ ?_ (List.getLast?_append_of_ne_nil _ (by decide)) (by decide)
      simp only [List.mem_append, not_or]
      exact ⟨⟨by decide, h⟩, by decide⟩
    have hsrc : Below ((PurePath.ofText "src/trading/strategies".toList).resolve s.cwd)
        ((srcPath ref).resolve s.cwd) := by
      refine below_joinpath s.cwd _ ?_ (List.getLast?_append_of_ne_nil _ (by decide)) (by decide)
      rw [List.mem_append, not_or]
      exact ⟨h, by decide⟩
    refine (strategy_confined_iff s ref).mpr ?_
    intro p hp
    unfold spelledPaths at hp
    have hcases : p = tomlPath ref ∨ p = srcPath ref := by
      split at hp
      · simpa using hp
      · exact .inl (List.mem_singleton.mp hp)
    rcases hcases with rfl | rfl
    · exact .inl ⟨_, List.mem_cons_self, htoml⟩
    · exact .inl ⟨_, List.mem_cons_of_mem _ List.mem_cons_self, hsrc⟩
  · have hzfill : '/' ∉ zfill4 ref.id.toList := by
      unfold zfill4
      split
      · next rest heq =>
        rw [heq] at h
        simpa using h
      · next rest heq =>
        rw [heq] at h
        simpa using h
      · simpa using h
    have hslash : '/' ∉ adrPattern ref := by
      rw [adrPattern, List.mem_append, not_or]
      exact ⟨hzfill, by decide⟩
    have hlast : (adrPattern ref).getLast? = some 'd' :=
      List.getLast?_append_of_ne_nil _ (by decide)
    have hne := ne_of_getLast? hlast [] (by decide)
    have hdot := ne_of_getLast? hlast ['.'] (by decide)
    have hup := ne_of_getLast? hlast ['.', '.'] (by decide)
    have hstars := ne_of_getLast? hlast ['*', '*'] (by decide)
    intro disk
    refine adr_confined_of_stays _ ref (.inr ⟨0, ?_⟩)
    rw [ofText_of_no_slash hslash hne hdot, leastDepth, if_neg hup, if_neg hstars]
    rfl

/-! ## An id that goes up -/

def climbingRef : ContextRef := ⟨"strategy", "../../../scripts/backfill_paper_settles"⟩

/-- The script that the id leads to. -/
def scriptLocation : Location :=
  ["app".toList, "scripts".toList, "backfill_paper_settles.py".toList]

/-- A disk with the directories of the repository and one of its scripts. -/
def repositoryDisk : Disk where
  dirs := [[], ["app".toList], ["app".toList, "scripts".toList], ["app".toList, "src".toList],
    ["app".toList, "src".toList, "trading".toList],
    ["app".toList, "src".toList, "trading".toList, "strategies".toList]]
  files := [(scriptLocation, .ok "import asyncio".toList)]
  proper := by decide
  apart := by
    rw [List.forall_mem_singleton]
    decide

/-- The source may be sent, and the working directory is that of the repository. -/
def repositorySurroundings : Surroundings where
  includeSource := true
  cwd := ["app".toList]
  cwd_proper := proper_app
  disk := repositoryDisk
  osError := fun _ => "[Errno 2] No such file or directory".toList
  uuid := fun _ => none
  backtest := fun _ => .ok none
  backtestTrades := fun _ => .ok []
  recentTrades := fun _ _ => .ok []
  paperStats := fun _ _ => .ok ⟨0, "0.0".toList, "0.0".toList, "0.0".toList⟩

/-- **Not every id.**  An id that goes up reads a script of the repository as a strategy's source. -/
theorem not_confined_climbing :
    ContextRef.parse id (some "strategy", some "../../../scripts/backfill_paper_settles") =
        .ok climbingRef ∧
      scriptLocation ∈ (loadStrategy repositorySurroundings climbingRef).reads ∧
      ¬Confined (strategyDirs repositorySurroundings.cwd)
        (loadStrategy repositorySurroundings climbingRef).reads := by
  have hread : scriptLocation ∈ (loadStrategy repositorySurroundings climbingRef).reads := by
    decide +kernel
  refine ⟨by decide +kernel, hread, ?_⟩
  intro h
  obtain ⟨dir, hdir, names, -, heq⟩ := h scriptLocation hread
  have hprefix : ∀ dir ∈ strategyDirs repositorySurroundings.cwd, ¬dir <+: scriptLocation := by
    decide +kernel
  exact hprefix dir hdir ⟨names, heq.symm⟩

end TradingEdge.Analysis
