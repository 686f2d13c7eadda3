import TradingEdge.Program.ModelRegistry

/-!
# The active model of a name

Training runs promote their models side by side.  The active row of a name is that of its last
promotion, where the UPDATE of a later one ends it (`lastPromoter`); a name that was served is left
without a model only between the two statements of a promotion, or if it did not get beyond the
first.  If no two runs share a directory, the loader opens exactly the files of the run that
was promoted last.
-/

set_option autoImplicit false

namespace TradingEdge.Analysis

open TradingEdge.Library TradingEdge.Program

variable {A ι : Type} [DecidableEq ι]

/-- The run whose promotion of a name is in force. -/
def promoterAfter (run : ι → TrainRun A) (name : String) (promoter : Option ι) :
    RegistryEvent ι → Option ι
  | .demoted i => if (run i).name = name then none else promoter
  | .registered i => if (run i).name = name ∧ (run i).isActive = true then some i else promoter

def lastPromoter (run : ι → TrainRun A) (name : String) (events : List (RegistryEvent ι)) :
    Option ι :=
  events.foldl (promoterAfter run name) none

/-- A run of a name that has taken the flag from the active row and has not got its own row in. -/
def UnfinishedPromotion (run : ι → TrainRun A) (name : String) (s : Registry ι A)
    (events : List (RegistryEvent ι)) (j : ι) : Prop :=
  (run j).name = name ∧ (run j).isActive = true ∧ .demoted j ∈ events ∧
    (s.phase j = .demoted ∨ s.phase j = .refused ∨ s.phase j = .died)

/-! ## One step -/

/-- What a step can do to the registry. -/
inductive RegistryMove (run : ι → TrainRun A) (s : Registry ι A) :
    Registry ι A → List (RegistryEvent ι) → Prop where
  | write (i : ι) (file : String × A) (left : List (String × A))
      (hphase : s.phase i = .saving (file :: left)) :
      RegistryMove run s { s.toPhase i (.saving left) with
        disk := s.disk.set ((run i).outDir, file.1) file.2 } []
  | demote (i : ι) (hphase : s.phase i = .saving []) (hactive : (run i).isActive = true) :
      RegistryMove run s
        { s.toPhase i .demoted with rows := deactivate (run i).name s.rows } [.demoted i]
  | accept (i : ι) (rows : List ModelRow)
      (hphase : s.phase i = .saving [] ∨ s.phase i = .demoted)
      (hinsert : insertModel (run i).row s.rows = some rows) :
      RegistryMove run s { s.toPhase i .registered with rows := rows } [.registered i]
  | refuse (i : ι) (hphase : s.phase i = .saving [] ∨ s.phase i = .demoted) :
      RegistryMove run s (s.toPhase i .refused) []
  | die (i : ι) (disk : Dict (OutDir × String) A)
      (hphase : (∃ left, s.phase i = .saving left) ∨ s.phase i = .demoted)
      (hdisk : ∀ dir file, dir ≠ (run i).outDir → disk.get? (dir, file) = s.disk.get? (dir, file)) :
      RegistryMove run s { s.toPhase i .died with disk := disk } []
  | stay : RegistryMove run s s []

/-- An insert is accepted or refused. -/
theorem move_insert (run : ι → TrainRun A) (s : Registry ι A) (i : ι)
    (hphase : s.phase i = .saving [] ∨ s.phase i = .demoted) :
    RegistryMove run s (s.insert i (run i).row).1 (s.insert i (run i).row).2 := by
  unfold Registry.insert
  split
  · exact .refuse i hphase
  · next rows hinsert => exact .accept i rows hphase hinsert

/-- Every step is one of these moves. -/
theorem registry_moves (run : ι → TrainRun A) (s : Registry ι A) (l : RegistryLabel ι A) :
    RegistryMove run s ((registryMachine run).next s l) ((registryMachine run).emits s l) := by
  cases l with
  | go i =>
    show RegistryMove run s (s.go run i).1 (s.go run i).2
    unfold Registry.go
    cases hphase : s.phase i with
    | saving left =>
      cases left with
      | cons file left => exact .write i file left hphase
      | nil =>
        by_cases hactive : (run i).isActive = true
        · simp only [hactive, if_true]
          exact .demote i hphase hactive
        · simp only [hactive]
          exact move_insert run s i (.inl hphase)
    | demoted => exact move_insert run s i (.inr hphase)
    | registered => exact .stay
    | refused => exact .stay
    | died => exact .stay
  | die i torn =>
    show RegistryMove run s (s.die run i torn) []
    unfold Registry.die
    cases hphase : s.phase i with
    | saving left =>
      cases left with
      | cons file left =>
        cases torn with
        | none => exact .die i s.disk (.inl ⟨_, hphase⟩) fun dir file hdir => rfl
        | some content =>
          refine .die i _ (.inl ⟨_, hphase⟩) fun dir other hdir => ?_
          rw [Dict.get?_set, if_neg fun heq => hdir (congrArg Prod.fst heq)]
      | nil => exact .die i s.disk (.inl ⟨_, hphase⟩) fun dir file hdir => rfl
    | demoted => exact .die i s.disk (.inr hphase) fun dir file hdir => rfl
    | registered => exact .stay
    | refused => exact .stay
    | died => exact .stay

/-! ## The rows -/

/-- Deactivating a name leaves it without an active row, and the other names as they are. -/
theorem activeRow_deactivate (name other : String) (rows : List ModelRow) :
    activeRow (deactivate other rows) name =
      if other = name then none else activeRow rows name := by
  unfold activeRow deactivate
  induction rows with
  | nil => simp
  | cons row rows ih =>
    rw [List.map_cons, List.find?_cons, List.find?_cons, ih]
    by_cases hrow : row.name = other
    · by_cases hname : other = name
      · simp [hrow, hname]
      · have hne : row.name ≠ name := fun heq => hname (hrow.symm.trans heq)
        simp [hrow, hname]
    · by_cases hname : other = name
      · have hne : row.name ≠ name := fun heq => hrow (heq.trans hname.symm)
        simp [hname, hne]
      · simp [hrow, hname]

/-- An inserted row is the active one of its name if it is active, and then there was none. -/
theorem activeRow_insertModel {row : ModelRow} {rows rows' : List ModelRow}
    (h : insertModel row rows = some rows') (name : String) :
    activeRow rows' name =
      if row.name = name ∧ row.isActive = true then some row else activeRow rows name := by
  unfold insertModel at h
  split at h
  · cases h
  · next hfree =>
    obtain rfl := Option.some.inj h
    unfold activeRow
    rw [List.find?_append, List.find?_singleton]
    by_cases hrow : row.name = name ∧ row.isActive = true
    · have hnone : rows.find? (fun row => row.name = name ∧ row.isActive = true) = none := by
        rw [List.find?_eq_none]
        intro old hold hactive
        simp only [decide_eq_true_eq] at hactive
        exact hfree ⟨old, hold, hactive.1.trans hrow.1.symm, .inr ⟨hactive.2, hrow.2⟩⟩
      rw [if_pos hrow, hnone, Option.none_or]
      simp [hrow]
    · simp [hrow]

/-! ## Promotions -/

/-- The active rows are those of the promotions in force. -/
structure ServesPromoted (run : ι → TrainRun A) (s : Registry ι A)
    (events : List (RegistryEvent ι)) : Prop where
  active : ∀ name, activeRow s.rows name = (lastPromoter run name events).map fun i => (run i).row
  promoter : ∀ name i, lastPromoter run name events = some i →
    (run i).name = name ∧ (run i).isActive = true ∧ .registered i ∈ events
  registered : ∀ i, .registered i ∈ events → s.phase i = .registered
  waiting : ∀ name i, lastPromoter run name events = none → .registered i ∈ events →
    (run i).name = name → (run i).isActive = true →
      ∃ j, UnfinishedPromotion run name s events j

omit [DecidableEq ι] in
/-- The promotion in force after one more event. -/
theorem lastPromoter_concat (run : ι → TrainRun A) (name : String)
    (events : List (RegistryEvent ι)) (e : RegistryEvent ι) :
    lastPromoter run name (events ++ [e]) =
      promoterAfter run name (lastPromoter run name events) e := by
  simp [lastPromoter]

/-- A run does not change the phase of another. -/
theorem phase_toPhase_of_ne {s : Registry ι A} {i j : ι} (h : j ≠ i) (phase : TrainPhase A) :
    (s.toPhase i phase).phase j = s.phase j :=
  Function.update_of_ne h _ _

/-- The phase a run moves to. -/
theorem phase_toPhase_self (s : Registry ι A) (i : ι) (phase : TrainPhase A) :
    (s.toPhase i phase).phase i = phase :=
  Function.update_self _ _ _

omit [DecidableEq ι] in
/-- A step without an event keeps the promotions, if only an unfinished run takes it and it does
not go on to promote. -/
theorem servesPromoted_quiet {run : ι → TrainRun A} {s s' : Registry ι A}
    {events : List (RegistryEvent ι)} (h : ServesPromoted run s events) (hrows : s'.rows = s.rows)
    (hphase : ∀ j, s.phase j = .registered → s'.phase j = .registered)
    (hwaits : ∀ j, s.phase j = .demoted ∨ s.phase j = .refused ∨ s.phase j = .died →
      s'.phase j = .demoted ∨ s'.phase j = .refused ∨ s'.phase j = .died) :
    ServesPromoted run s' events := by
  refine ⟨fun name => ?_, h.promoter, fun i hi => hphase i (h.registered i hi), ?_⟩
  · rw [hrows]
    exact h.active name
  · intro name i hnone hi hname hactive
    obtain ⟨j, hj, hjactive, hdemoted, hjphase⟩ := h.waiting name i hnone hi hname hactive
    exact ⟨j, hj, hjactive, hdemoted, hwaits j hjphase⟩

/-- Taking the flag from the active row ends the promotion in force. -/
theorem servesPromoted_demote {run : ι → TrainRun A} {s : Registry ι A}
    {events : List (RegistryEvent ι)} (h : ServesPromoted run s events) {i : ι}
    (hphase : s.phase i = .saving []) (hactive : (run i).isActive = true) :
    ServesPromoted run { s.toPhase i .demoted with rows := deactivate (run i).name s.rows }
      (events ++ [.demoted i]) := by
  have hothers : ∀ j, .registered j ∈ events ++ [.demoted i] → .registered j ∈ events := by
    intro j hj
    rcases List.mem_append.mp hj with hj | hj
    · exact hj
    · cases List.mem_singleton.mp hj
  constructor
  · intro name
    rw [activeRow_deactivate, lastPromoter_concat, promoterAfter, h.active name]
    split <;> rfl
  · intro name j hj
    rw [lastPromoter_concat, promoterAfter] at hj
    split at hj
    · cases hj
    · obtain ⟨hname, hjactive, hreg⟩ := h.promoter name j hj
      exact ⟨hname, hjactive, List.mem_append_left _ hreg⟩
  · intro j hj
    have hreg := h.registered j (hothers j hj)
    have hne : j ≠ i := by
      rintro rfl
      rw [hphase] at hreg
      cases hreg
    exact (phase_toPhase_of_ne hne _).trans hreg
  · intro name j hnone hj hname hjactive
    by_cases hsame : (run i).name = name
    · exact ⟨i, hsame, hactive, List.mem_append_right _ (List.mem_singleton.mpr rfl),
        .inl (phase_toPhase_self s i _)⟩
    · rw [lastPromoter_concat, promoterAfter, if_neg hsame] at hnone
      obtain ⟨k, hk, hkactive, hdemoted, hkphase⟩ :=
        h.waiting name j hnone (hothers j hj) hname hjactive
      have hne : k ≠ i := fun heq => hsame (heq ▸ hk)
      refine ⟨k, hk, hkactive, List.mem_append_left _ hdemoted, ?_⟩
      show (s.toPhase i _).phase k = _ ∨ (s.toPhase i _).phase k = _ ∨ (s.toPhase i _).phase k = _
      rw [phase_toPhase_of_ne hne]
      exact hkphase

/-- A row that is accepted with the flag is the promotion in force. -/
theorem servesPromoted_accept {run : ι → TrainRun A} {s : Registry ι A}
    {events : List (RegistryEvent ι)} (h : ServesPromoted run s events) {i : ι}
    {rows : List ModelRow} (hphase : s.phase i = .saving [] ∨ s.phase i = .demoted)
    (hinsert : insertModel (run i).row s.rows = some rows) :
    ServesPromoted run { s.toPhase i .registered with rows := rows }
      (events ++ [.registered i]) := by
  constructor
  · intro name
    rw [activeRow_insertModel hinsert, lastPromoter_concat, promoterAfter, h.active name]
    show (if (run i).name = name ∧ (run i).isActive = true then _ else _) = _
    split <;> rfl
  · intro name j hj
    rw [lastPromoter_concat, promoterAfter] at hj
    split at hj
    · next hself =>
      obtain rfl := Option.some.inj hj
      exact ⟨hself.1, hself.2, List.mem_append_right _ (List.mem_singleton.mpr rfl)⟩
    · obtain ⟨hname, hjactive, hreg⟩ := h.promoter name j hj
      exact ⟨hname, hjactive, List.mem_append_left _ hreg⟩
  · intro j hj
    by_cases hji : j = i
    · subst hji
      exact phase_toPhase_self s j _
    · rcases List.mem_append.mp hj with hj | hj
      · exact (phase_toPhase_of_ne hji _).trans (h.registered j hj)
      · exact absurd (RegistryEvent.registered.inj (List.mem_singleton.mp hj)) hji
  · intro name j hnone hj hname hjactive
    rw [lastPromoter_concat, promoterAfter] at hnone
    split at hnone
    · cases hnone
    · next hother =>
      have hbefore : .registered j ∈ events := by
        rcases List.mem_append.mp hj with hj | hj
        · exact hj
        · rw [RegistryEvent.registered.inj (List.mem_singleton.mp hj)] at hname hjactive
          exact absurd ⟨hname, hjactive⟩ hother
      obtain ⟨k, hk, hkactive, hdemoted, hkphase⟩ := h.waiting name j hnone hbefore hname hjactive
      have hne : k ≠ i := by
        rintro rfl
        exact hother ⟨hk, hkactive⟩
      refine ⟨k, hk, hkactive, List.mem_append_left _ hdemoted, ?_⟩
      show (s.toPhase i _).phase k = _ ∨ (s.toPhase i _).phase k = _ ∨ (s.toPhase i _).phase k = _
      rw [phase_toPhase_of_ne hne]
      exact hkphase

/-- Every move keeps the active rows those of the promotions in force. -/
theorem servesPromoted_move {run : ι → TrainRun A} {s s' : Registry ι A}
    {events emitted : List (RegistryEvent ι)} (h : ServesPromoted run s events)
    (hmove : RegistryMove run s s' emitted) : ServesPromoted run s' (events ++ emitted) := by
  -- a phase that a quiet step ends is none that the promotions are about
  have hquiet : ∀ (i : ι) (phase : TrainPhase A), s.phase i ≠ .registered →
      ((∃ left, s.phase i = .saving left) ∨ phase = .refused ∨ phase = .died) →
      ∀ s'' : Registry ι A, s''.rows = s.rows → s''.phase = (s.toPhase i phase).phase →
        ServesPromoted run s'' events := by
    intro i phase hne hto s'' hrows heq
    refine servesPromoted_quiet h hrows (fun j hj => ?_) (fun j hj => ?_)
    · have hji : j ≠ i := fun hji => hne (hji ▸ hj)
      rw [heq, phase_toPhase_of_ne hji]
      exact hj
    · rw [heq]
      by_cases hji : j = i
      · subst hji
        rw [phase_toPhase_self]
        rcases hto with ⟨left, hleft⟩ | hrefused | hdied
        · rw [hleft] at hj
          simp at hj
        · exact .inr (.inl hrefused)
        · exact .inr (.inr hdied)
      · rw [phase_toPhase_of_ne hji]
        exact hj
  have hunfinished : ∀ i, s.phase i = .saving [] ∨ s.phase i = .demoted →
      s.phase i ≠ .registered := by
    rintro i (hi | hi) hreg <;> rw [hi] at hreg <;> cases hreg
  cases hmove with
  | write i file left hphase =>
    rw [List.append_nil]
    refine hquiet i (.saving left) ?_ (.inl ⟨_, hphase⟩) _ rfl rfl
    rw [hphase]
    simp
  | demote i hphase hactive => exact servesPromoted_demote h hphase hactive
  | accept i rows hphase hinsert => exact servesPromoted_accept h hphase hinsert
  | refuse i hphase =>
    rw [List.append_nil]
    exact hquiet i .refused (hunfinished i hphase) (.inr (.inl rfl)) _ rfl rfl
  | die i disk hphase hdisk =>
    rw [List.append_nil]
    refine hquiet i .died ?_ (.inr (.inr rfl)) _ rfl rfl
    rcases hphase with ⟨left, hleft⟩ | hdemoted
    · rw [hleft]
      simp
    · exact hunfinished i (.inr hdemoted)
  | stay =>
    rw [List.append_nil]
    exact h

/-- So does a run, from the empty registry. -/
theorem servesPromoted_run (run : ι → TrainRun A) (ls : List (RegistryLabel ι A)) :
    ServesPromoted run ((registryMachine run).final (.start run) ls)
      ((registryMachine run).trace (.start run) ls) := by
  induction ls using List.reverseRecOn with
  | nil =>
    refine ⟨fun name => rfl, fun name i hi => ?_, fun i hi => ?_, fun name i hnone hi => ?_⟩
    · cases hi
    · cases hi
    · cases hi
  | append_singleton ls l ih =>
    rw [Machine.final_concat, Machine.trace_concat]
    exact servesPromoted_move ih (registry_moves run _ l)

/-- **A name that was served is without a model only within a promotion.** Whatever runs train at
once and wherever they die, the active row of a name is that of the promotion in force; if there is
none, though a promoted row was inserted once, a run of the name has taken the flag from the active
row and its own insert is still to come, was refused, or did not come any more. -/
theorem active_row_in_force (run : ι → TrainRun A) (ls : List (RegistryLabel ι A))
    (name : String) :
    activeRow ((registryMachine run).final (.start run) ls).rows name =
        (lastPromoter run name ((registryMachine run).trace (.start run) ls)).map
          (fun i => (run i).row) ∧
      (activeRow ((registryMachine run).final (.start run) ls).rows name = none →
        ∀ i, .registered i ∈ (registryMachine run).trace (.start run) ls → (run i).name = name →
          (run i).isActive = true →
            ∃ j, UnfinishedPromotion run name ((registryMachine run).final (.start run) ls)
              ((registryMachine run).trace (.start run) ls) j) := by
  have h := servesPromoted_run run ls
  refine ⟨h.active name, fun hnone i hi hname hactive => ?_⟩
  rw [h.active name, Option.map_eq_none_iff] at hnone
  exact h.waiting name i hnone hi hname hactive

/-! ## The files -/

/-- What a run has on disk so far. -/
def SavedFiles (run : TrainRun A) (disk : Dict (OutDir × String) A) : TrainPhase A → Prop
  | .saving left => ∃ written, run.files = written ++ left ∧
      ∀ file, disk.get? (run.outDir, file) = written.reverse.lookup file
  | .died => True
  | _ => ∀ file, disk.get? (run.outDir, file) = run.files.reverse.lookup file

/-- A run that writes no more has its files on disk as it wrote them, as long as nobody else writes
to its directory. -/
theorem savedFiles_of_same {run : TrainRun A} {disk disk' : Dict (OutDir × String) A}
    {phase : TrainPhase A} (h : SavedFiles run disk phase)
    (hsame : ∀ file, disk'.get? (run.outDir, file) = disk.get? (run.outDir, file)) :
    SavedFiles run disk' phase := by
  cases phase with
  | saving left =>
    obtain ⟨written, hfiles, hdisk⟩ := h
    exact ⟨written, hfiles, fun file => (hsame file).trans (hdisk file)⟩
  | died => trivial
  | demoted => exact fun file => (hsame file).trans (h file)
  | registered => exact fun file => (hsame file).trans (h file)
  | refused => exact fun file => (hsame file).trans (h file)

/-- Once nothing is left to write, every file of the run is on disk. -/
theorem savedFiles_finished {run : TrainRun A} {disk : Dict (OutDir × String) A}
    (h : SavedFiles run disk (.saving [])) (file : String) :
    disk.get? (run.outDir, file) = run.files.reverse.lookup file := by
  obtain ⟨written, hfiles, hdisk⟩ := h
  rw [hdisk, hfiles, List.append_nil]

/-- With a directory of its own for each run, a move keeps what each of them has on disk. -/
theorem savedFiles_move {run : ι → TrainRun A}
    (hdirs : ∀ i j, (run i).outDir = (run j).outDir → i = j) {s s' : Registry ι A}
    (h : ∀ j, SavedFiles (run j) s.disk (s.phase j)) {emitted : List (RegistryEvent ι)}
    (hmove : RegistryMove run s s' emitted) (j : ι) :
    SavedFiles (run j) s'.disk (s'.phase j) := by
  -- a run that has written its files and moves on
  have hfinished : ∀ i (phase : TrainPhase A),
      s.phase i = .saving [] ∨ s.phase i = .demoted →
      phase = .demoted ∨ phase = .registered ∨ phase = .refused →
        SavedFiles (run j) s.disk ((s.toPhase i phase).phase j) := by
    intro i phase hphase hto
    by_cases hji : j = i
    · subst hji
      have hfiles : ∀ file, s.disk.get? ((run j).outDir, file) =
          (run j).files.reverse.lookup file := by
        have hj := h j
        rcases hphase with hphase | hphase <;> rw [hphase] at hj
        · exact savedFiles_finished hj
        · exact hj
      rw [phase_toPhase_self]
      rcases hto with rfl | rfl | rfl <;> exact hfiles
    · rw [phase_toPhase_of_ne hji]
      exact h j
  cases hmove with
  | write i file left hphase =>
    show SavedFiles (run j) (s.disk.set ((run i).outDir, file.1) file.2)
      ((s.toPhase i (.saving left)).phase j)
    by_cases hji : j = i
    · subst hji
      have hj := h j
      rw [hphase] at hj
      obtain ⟨written, hfiles, hdisk⟩ := hj
      rw [phase_toPhase_self]
      refine ⟨written ++ [file], by rw [hfiles]; simp, fun other => ?_⟩
      rw [Dict.get?_set, List.reverse_append, List.reverse_singleton, List.singleton_append,
        List.lookup_cons, hdisk]
      by_cases hother : other = file.1
      · simp [hother]
      · have hkey : ((run j).outDir, other) ≠ ((run j).outDir, file.1) :=
          fun heq => hother (congrArg Prod.snd heq)
        have hbeq : (other == file.1) = false := beq_false_of_ne hother
        rw [if_neg hkey, hbeq]
    · rw [phase_toPhase_of_ne hji]
      refine savedFiles_of_same (h j) fun other => ?_
      rw [Dict.get?_set, if_neg fun heq => hji (hdirs j i (congrArg Prod.fst heq))]
  | demote i hphase hactive => exact hfinished i .demoted (.inl hphase) (.inl rfl)
  | accept i rows hphase hinsert => exact hfinished i .registered hphase (.inr (.inl rfl))
  | refuse i hphase => exact hfinished i .refused hphase (.inr (.inr rfl))
  | die i disk hphase hdisk =>
    show SavedFiles (run j) disk ((s.toPhase i .died).phase j)
    by_cases hji : j = i
    · subst hji
      rw [phase_toPhase_self]
      trivial
    · rw [phase_toPhase_of_ne hji]
      exact savedFiles_of_same (h j) fun file => hdisk _ _ fun heq => hji (hdirs j i heq)
  | stay => exact h j

/-- So do all steps. -/
theorem savedFiles_run {run : ι → TrainRun A}
    (hdirs : ∀ i j, (run i).outDir = (run j).outDir → i = j) (ls : List (RegistryLabel ι A))
    (j : ι) :
    SavedFiles (run j) ((registryMachine run).final (.start run) ls).disk
      (((registryMachine run).final (.start run) ls).phase j) := by
  induction ls using List.reverseRecOn generalizing j with
  | nil => exact ⟨[], rfl, fun file => rfl⟩
  | append_singleton ls l ih =>
    rw [Machine.final_concat]
    exact savedFiles_move hdirs ih (registry_moves run _ l) j

/-! ## The loader -/

/-- What the loader opens of a run: the model and the calibrator of a forecaster. -/
def openRun {R : Type} (lgbRunner : A → Option A → Option R) : TrainRun A → Option R
  | .forecaster _ _ _ _ model calibrator _ => lgbRunner model calibrator
  | .hmmRegime .. => none

/-- The loader finds the files of a run under the names it looks for. -/
theorem opened_files {R : Type} (lgbRunner : A → Option A → Option R) (run : TrainRun A) :
    ((run.files.reverse.lookup "model.lgb").bind fun model =>
      lgbRunner model (run.files.reverse.lookup "calibrator.pkl")) = openRun lgbRunner run := by
  cases run with
  | forecaster name version metrics promote model calibrator metaJson =>
    cases calibrator <;> rfl
  | hmmRegime version promote model metaJson => rfl

/-- **The loader opens what was promoted last.** If no two runs share a directory then, whatever
runs train at once and wherever they die, the loader opens the model and the calibrator of the run
whose promotion is in force, whole and as that run wrote them; and a forecaster among these
has passed the gate. -/
theorem loads_last_promoted {R : Type} (run : ι → TrainRun A)
    (hdirs : ∀ i j, (run i).outDir = (run j).outDir → i = j) (ls : List (RegistryLabel ι A))
    (lgbRunner : A → Option A → Option R) (name : String) :
    loadRunner lgbRunner ((registryMachine run).final (.start run) ls) name =
        (lastPromoter run name ((registryMachine run).trace (.start run) ls)).bind
          (fun i => openRun lgbRunner (run i)) ∧
      ∀ i, lastPromoter run name ((registryMachine run).trace (.start run) ls) = some i →
        (run i).name = name ∧ ∀ version metrics promote model calibrator metaJson,
          run i = .forecaster name version metrics promote model calibrator metaJson →
            promote = true ∧ passesPromotion metrics = true := by
  have h := servesPromoted_run run ls
  constructor
  · unfold loadRunner
    rw [h.active name]
    cases hpromoter : lastPromoter run name ((registryMachine run).trace (.start run) ls) with
    | none => rfl
    | some i =>
      obtain ⟨hname, hactive, hreg⟩ := h.promoter name i hpromoter
      have hfiles := savedFiles_run hdirs ls i
      rw [h.registered i hreg] at hfiles
      have hget : ∀ file, ((registryMachine run).final (.start run) ls).disk.get?
          ((run i).row.path, file) = (run i).files.reverse.lookup file := hfiles
      show (((registryMachine run).final (.start run) ls).disk.get? ((run i).row.path, "model.lgb")
        ).bind (fun model => lgbRunner model _) = openRun lgbRunner (run i)
      rw [hget, hget]
      exact opened_files lgbRunner (run i)
  · intro i hpromoter
    obtain ⟨hname, hactive, -⟩ := h.promoter name i hpromoter
    refine ⟨hname, fun version metrics promote model calibrator metaJson hrun => ?_⟩
    rw [hrun] at hactive
    exact Bool.and_eq_true_iff.mp hactive

/-- Two forecasters that pass the gate are promoted at once. -/
def rivalRuns (second : Bool) : TrainRun String :=
  .forecaster "last_90s_forecaster_v3" (if second then "v3_first_b" else "v3_first_a")
    ⟨some 300, some 300, 60 / 100, 24 / 100, 4 / 100⟩ true
    (if second then "booster b" else "booster a") none "metrics"

/-- Both save their files and take the flag, the first insert is accepted, the second refused. -/
def rivalSteps : List (RegistryLabel Bool String) :=
  [.go false, .go true, .go true, .go false, .go false, .go true, .go false, .go true]

/-- After two rival promotions the runner loads the one that came last. -/
theorem loads_last_promoted_rivals :
    loadRunner (fun model calibrator => some (model, calibrator))
      ((registryMachine rivalRuns).final (.start rivalRuns) rivalSteps) "last_90s_forecaster_v3" =
        some ("booster a", none) := by
  have hdirs : ∀ i j, (rivalRuns i).outDir = (rivalRuns j).outDir → i = j := by decide
  refine (loads_last_promoted rivalRuns hdirs rivalSteps _ "last_90s_forecaster_v3").1.trans ?_
  have hpromoter : lastPromoter rivalRuns "last_90s_forecaster_v3"
      ((registryMachine rivalRuns).trace (.start rivalRuns) rivalSteps) = some false := by
    decide +kernel
  rw [hpromoter]
  rfl

end TradingEdge.Analysis
