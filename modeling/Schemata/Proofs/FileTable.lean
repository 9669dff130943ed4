import Schemata.Proofs.Keys
import Schemata.Source.Files

/-!
# The table of files in step with its log

The table of files is two maps, the texts and a counter. The two maps are changed by different
requests and have to stay inverse to each other, and a number that was forgotten must not come back.
Both follow from what one request keeps (`Files.Tracks`): the maps mirror each other, they hold what
is live in the log of the requests, and no number in the log reaches the counter. Only the counter's
width of 32 bits can break this, so the number of paths that got a new number is counted along with
the log.

There is one lemma for each way in which a request can change the table: a path is asked for that is
known (`Files.Tracks.recall`) or not (`Files.Tracks.allocate`), a text is recorded
(`Files.Tracks.setText`), and a file is forgotten (`Files.Tracks.remove`).
-/

namespace Schemata

/-! ### Logs -/

/-- A request to the table of files, with the number that was handed out. -/
inductive FileEvent where
  | numbered (path : String) (file : FileId)
  | told (file : FileId) (text : String)
  | forgotten (file : FileId)

/-- What was asked of the table of files, oldest first. -/
abbrev FileLog := List FileEvent

namespace FileLog

/-- A path is live under a number that it was given and that was not forgotten since. -/
def Live (log : FileLog) (path : Path) (file : FileId) : Prop :=
  ∃ spelling before after, log = before ++ .numbered spelling file :: after ∧
    Path.ofText spelling = path ∧ .forgotten file ∉ after

/-- The first spelling of a live number is the one that stands where its path was not yet live. -/
def Spells (log : FileLog) (file : FileId) (spelling : String) : Prop :=
  ∃ before after, log = before ++ .numbered spelling file :: after ∧
    (∀ other, ¬ Live before (Path.ofText spelling) other) ∧ .forgotten file ∉ after

/-- The text of a file is the last that was told, unless the file was forgotten since. -/
def Tells (log : FileLog) (file : FileId) (text : String) : Prop :=
  ∃ before after, log = before ++ .told file text :: after ∧
    (∀ later, .told file later ∉ after) ∧ .forgotten file ∉ after

/-- A place in a log that goes on with one more event. -/
theorem concat_eq_append_cons_iff {log a b : FileLog} {e x : FileEvent} :
    log ++ [e] = a ++ x :: b ↔
      (log = a ∧ e = x ∧ b = []) ∨ ∃ b', b = b' ++ [e] ∧ log = a ++ x :: b' := by
  constructor
  · intro h
    rcases List.eq_nil_or_concat b with rfl | ⟨b', e', rfl⟩
    · obtain ⟨hlog, he⟩ := List.append_inj' h rfl
      exact .inl ⟨hlog, List.head_eq_of_cons_eq he, rfl⟩
    · have h : log ++ [e] = (a ++ x :: b') ++ [e'] := by simpa using h
      obtain ⟨hlog, he⟩ := List.append_inj' h rfl
      exact .inr ⟨b', by rw [List.concat_eq_append, he], hlog⟩
  · rintro (⟨rfl, rfl, rfl⟩ | ⟨b', rfl, rfl⟩)
    · rfl
    · simp

/-- What holds of some place in a log that goes on with one more event. -/
theorem exists_append_cons_concat_iff {log : FileLog} {e x : FileEvent}
    {p : FileLog → FileLog → Prop} :
    (∃ before after, log ++ [e] = before ++ x :: after ∧ p before after) ↔
      e = x ∧ p log [] ∨
        ∃ before after, log = before ++ x :: after ∧ p before (after ++ [e]) := by
  constructor
  · rintro ⟨before, after, hlog, hp⟩
    rcases concat_eq_append_cons_iff.1 hlog with ⟨rfl, he, rfl⟩ | ⟨after, rfl, hprior⟩
    · exact .inl ⟨he, hp⟩
    · exact .inr ⟨before, after, hprior, hp⟩
  · rintro (⟨he, hp⟩ | ⟨before, after, hprior, hp⟩)
    · exact ⟨log, [], concat_eq_append_cons_iff.2 (.inl ⟨rfl, he, rfl⟩), hp⟩
    · exact ⟨before, _, concat_eq_append_cons_iff.2 (.inr ⟨after, rfl, hprior⟩), hp⟩

section Concat

variable {log : FileLog} {e : FileEvent} {path : Path} {file : FileId} {spelling text : String}

/-- A path is live after an event that hands out its number, and stays so until that number is
forgotten. -/
@[simp] theorem live_concat : Live (log ++ [e]) path file ↔
    (∃ spelling, e = .numbered spelling file ∧ Path.ofText spelling = path) ∨
      Live log path file ∧ e ≠ .forgotten file := by
  simp only [Live, exists_append_cons_concat_iff, exists_or]
  refine or_congr ?_ ?_
  · simp
  · simp [← and_assoc, exists_and_right, eq_comm]

/-- The first number handed out for a path spells it, and later ones do not as long as it is
live. -/
@[simp] theorem spells_concat : Spells (log ++ [e]) file spelling ↔
    (e = .numbered spelling file ∧ ∀ other, ¬ Live log (Path.ofText spelling) other) ∨
      Spells log file spelling ∧ e ≠ .forgotten file := by
  simp only [Spells, exists_append_cons_concat_iff]
  refine or_congr ?_ ?_
  · simp
  · simp [← and_assoc, exists_and_right, eq_comm]

/-- The last text of a file counts, until the file is forgotten. -/
@[simp] theorem tells_concat : Tells (log ++ [e]) file text ↔
    e = .told file text ∨
      Tells log file text ∧ (∀ later, e ≠ .told file later) ∧ e ≠ .forgotten file := by
  simp only [Tells, exists_append_cons_concat_iff]
  refine or_congr ?_ ?_
  · simp
  · simp only [List.mem_append, List.mem_singleton, not_or, forall_and, ← exists_and_right]
    refine exists₂_congr fun before after ↦ ?_
    simp only [and_assoc, and_left_comm, ne_eq, eq_comm]

/-- Whether a number was handed out for one path only, and not forgotten since the first time. -/
def GivenTo (log : FileLog) (file : FileId) (path : Path) : Prop :=
  ∀ ⦃before after : FileLog⦄ ⦃spelling : String⦄,
    log = before ++ .numbered spelling file :: after →
      Path.ofText spelling = path ∧ .forgotten file ∉ after

theorem GivenTo.of_not_mem (h : ∀ spelling, .numbered spelling file ∉ log) :
    log.GivenTo file path :=
  fun _ _ spelling hlog ↦ absurd (by simp [hlog]) (h spelling)

theorem GivenTo.concat (h : log.GivenTo file path)
    (hpath : ∀ spelling, e = .numbered spelling file → Path.ofText spelling = path)
    (hforgotten : e ≠ .forgotten file) : (log ++ [e]).GivenTo file path := by
  intro before after spelling hlog
  rcases concat_eq_append_cons_iff.1 hlog with ⟨-, he, rfl⟩ | ⟨after, rfl, hprior⟩
  · exact ⟨hpath _ he, List.not_mem_nil⟩
  · obtain ⟨hsame, hafter⟩ := h hprior
    exact ⟨hsame, by simp [hafter, hforgotten.symm]⟩

end Concat

/-- Two numbers that were handed out are the same exactly if they were for one path and the number
was not forgotten in between. -/
def NumbersByPath (log : FileLog) : Prop :=
  ∀ ⦃before between after : FileLog⦄ ⦃path path' : String⦄ ⦃file file' : FileId⦄,
    log = before ++ .numbered path file :: (between ++ .numbered path' file' :: after) →
      (file = file' ↔ Path.ofText path = Path.ofText path' ∧ .forgotten file ∉ between)

theorem NumbersByPath.concat {log : FileLog} (h : log.NumbersByPath) {e : FileEvent}
    (he : ∀ ⦃before between : FileLog⦄ ⦃path path' : String⦄ ⦃file file' : FileId⦄,
      e = .numbered path' file' → log = before ++ .numbered path file :: between →
        (file = file' ↔ Path.ofText path = Path.ofText path' ∧ .forgotten file ∉ between)) :
    (log ++ [e]).NumbersByPath := by
  intro before between after path path' file file' hlog
  rcases concat_eq_append_cons_iff.1 hlog with ⟨-, -, hrest⟩ | ⟨rest, hrest, hprior⟩
  · simp at hrest
  · rcases concat_eq_append_cons_iff.1 hrest.symm with ⟨rfl, he', -⟩ | ⟨after', -, rfl⟩
    · exact he he' hprior
    · exact h hprior

/-- So a number that was forgotten is not handed out again. -/
theorem NumbersByPath.not_mem {log before between after : FileLog} {path path' : String}
    {file : FileId} (h : log.NumbersByPath)
    (hlog : log = before ++ .numbered path file :: (between ++ .forgotten file :: after)) :
    .numbered path' file ∉ after := by
  intro hmem
  obtain ⟨after₁, after₂, rfl⟩ := List.append_of_mem hmem
  have hsplit : log = before ++ .numbered path file ::
      ((between ++ .forgotten file :: after₁) ++ .numbered path' file :: after₂) := by
    simp [hlog]
  exact ((h hsplit).1 rfl).2 (by simp)

end FileLog

/-! ### One request -/

namespace Files

/-- The table has kept step with a log in which some number of paths got a new number. -/
structure Tracks (fs : Files) (log : FileLog) (allocated : Nat) : Prop where
  next_eq : fs.next = allocated
  /-- The two maps are inverse to each other. -/
  mem_numbers_iff : ∀ {spelling file}, (spelling, file) ∈ fs.numbers ↔ (file, spelling) ∈ fs.paths
  /-- No path has two numbers. -/
  numbers_nodup : (fs.numbers.map fun e ↦ Path.ofText e.1).Nodup
  /-- No number has two paths. -/
  paths_nodup : (fs.paths.map (·.1)).Nodup
  mem_paths_iff : ∀ {spelling file}, (file, spelling) ∈ fs.paths ↔ log.Spells file spelling
  exists_of_live : ∀ {path file}, log.Live path file →
    ∃ spelling, (file, spelling) ∈ fs.paths ∧ Path.ofText spelling = path
  /-- A number that is known was only handed out for its path, and not forgotten since. -/
  givenTo_of_mem : ∀ {spelling file}, (file, spelling) ∈ fs.paths →
    log.GivenTo file (Path.ofText spelling)
  index_lt_next : ∀ {path file}, .numbered path file ∈ log → file.index < fs.next
  numbersByPath : log.NumbersByPath
  lines?_eq_some_iff : ∀ {file lines}, fs.lines? file = some lines ↔
    ∃ text, log.Tells file text ∧ Lines.ofText text = lines

variable {fs : Files} {log : FileLog} {allocated : Nat} {path spelling text : String}
  {file other : FileId}

section Maps

variable (h : fs.Tracks log allocated)
include h

theorem Tracks.path?_eq_some_iff : fs.path? file = some spelling ↔ (file, spelling) ∈ fs.paths :=
  lookup_eq_some_iff_mem h.paths_nodup

/-- A path is known under any spelling of it. -/
theorem Tracks.find?_eq_some_iff : fs.find? path = some file ↔
    ∃ spelling, (file, spelling) ∈ fs.paths ∧ Path.ofText spelling = Path.ofText path := by
  rw [find?, Option.map_eq_some_iff]
  simp only [find?_eq_some_iff_of_nodup h.numbers_nodup fun _ ↦ Path.same_iff]
  constructor
  · rintro ⟨⟨spelling, _⟩, ⟨hmem, hsame⟩, rfl⟩
    exact ⟨spelling, h.mem_numbers_iff.1 hmem, hsame⟩
  · rintro ⟨spelling, hmem, hsame⟩
    exact ⟨(spelling, file), ⟨h.mem_numbers_iff.2 hmem, hsame⟩, rfl⟩

/-- The live paths are those in the map of paths. -/
theorem Tracks.live_iff {path : Path} : log.Live path file ↔
    ∃ spelling, (file, spelling) ∈ fs.paths ∧ Path.ofText spelling = path := by
  refine ⟨h.exists_of_live, ?_⟩
  rintro ⟨spelling, hmem, hsame⟩
  obtain ⟨before, after, hlog, -, hafter⟩ := h.mem_paths_iff.1 hmem
  exact ⟨spelling, before, after, hlog, hsame, hafter⟩

theorem Tracks.find?_eq_some_iff_live :
    fs.find? path = some file ↔ log.Live (Path.ofText path) file := by
  rw [h.find?_eq_some_iff, h.live_iff]

/-- A path that is not known is not live. -/
theorem Tracks.not_live (hfind : fs.find? path = none) (other : FileId) :
    ¬ log.Live (Path.ofText path) other := by
  rw [← h.find?_eq_some_iff_live, hfind]
  exact Option.some_ne_none other ∘ Eq.symm

/-- What the map of paths holds was handed out. -/
theorem Tracks.numbered_of_mem_paths (hmem : (file, spelling) ∈ fs.paths) :
    .numbered spelling file ∈ log := by
  obtain ⟨before, after, hlog, -⟩ := h.mem_paths_iff.1 hmem
  simp [hlog]

/-- The next number was not handed out. -/
theorem Tracks.next_not_mem (path : String) : .numbered path ⟨fs.next⟩ ∉ log := fun hmem ↦
  Nat.lt_irrefl _ (h.index_lt_next hmem)

/-- And so it is not the number that is handed out next. -/
theorem Tracks.ne_next_of_mem (hmem : (file, spelling) ∈ fs.paths) : file ≠ ⟨fs.next⟩ := by
  rintro rfl
  exact h.next_not_mem _ (h.numbered_of_mem_paths hmem)

end Maps

/-- An event that is not a number being handed out changes nothing about those that were. -/
theorem Tracks.numbersByPath_concat (h : fs.Tracks log allocated) {e : FileEvent}
    (he : ∀ path file, e ≠ .numbered path file) : (log ++ [e]).NumbersByPath :=
  h.numbersByPath.concat fun _ _ _ _ _ _ heq _ ↦ absurd heq (he _ _)

/-- A known path is asked for. -/
theorem Tracks.recall (h : fs.Tracks log allocated) (hfind : fs.find? path = some file) :
    fs.Tracks (log ++ [.numbered path file]) allocated := by
  obtain ⟨first, hfirst, hsame⟩ := h.find?_eq_some_iff.1 hfind
  have hlive : log.Live (Path.ofText path) file := h.find?_eq_some_iff_live.1 hfind
  -- what is known about the path comes from its first spelling
  have hone {other} {spelling} (hmem : (other, spelling) ∈ fs.paths)
      (hpath : Path.ofText spelling = Path.ofText path) : other = file :=
    Option.some.inj ((h.find?_eq_some_iff.2 ⟨spelling, hmem, hpath⟩).symm.trans hfind)
  refine ⟨h.next_eq, h.mem_numbers_iff, h.numbers_nodup, h.paths_nodup, ?paths, ?live, ?givenTo,
    ?below, ?distinct, ?lines⟩
  case paths =>
    intro spelling other
    rw [FileLog.spells_concat, ← h.mem_paths_iff]
    constructor
    · exact fun hmem ↦ .inr ⟨hmem, nofun⟩
    · rintro (⟨⟨⟩, hnot⟩ | ⟨hmem, -⟩)
      · exact absurd hlive (hnot _)
      · exact hmem
  case live =>
    intro path' other hother
    rcases FileLog.live_concat.1 hother with ⟨_, ⟨⟩, rfl⟩ | ⟨hother, -⟩
    · exact ⟨first, hfirst, hsame⟩
    · exact h.exists_of_live hother
  case givenTo =>
    intro spelling other hmem
    refine (h.givenTo_of_mem hmem).concat ?_ nofun
    rintro _ ⟨⟩
    obtain rfl : spelling = first := Option.some.inj
      ((h.path?_eq_some_iff.2 hmem).symm.trans (h.path?_eq_some_iff.2 hfirst))
    exact hsame.symm
  case below =>
    intro path' other hmem
    rcases List.mem_append.1 hmem with hmem | hmem
    · exact h.index_lt_next hmem
    · obtain ⟨rfl, rfl⟩ : path' = path ∧ other = file := by simpa using hmem
      exact h.index_lt_next (h.numbered_of_mem_paths hfirst)
  case distinct =>
    refine h.numbersByPath.concat ?_
    rintro before between earlier _ other _ ⟨⟩ hlog
    constructor
    · rintro rfl
      obtain ⟨hpath, hbetween⟩ := h.givenTo_of_mem hfirst hlog
      exact ⟨hpath.trans hsame, hbetween⟩
    · rintro ⟨hpath, hbetween⟩
      obtain ⟨spelling, hmem, hspelling⟩ :=
        h.exists_of_live ⟨_, before, between, hlog, rfl, hbetween⟩
      exact hone hmem (hspelling.trans hpath)
  case lines =>
    intro file lines
    simp [h.lines?_eq_some_iff]

@[simp] theorem lines?_allocate (fs : Files) (path : String) (file : FileId) :
    (fs.allocate path).lines? file = fs.lines? file := rfl

/-- A new number takes the place of whatever stood under it. -/
theorem mem_paths_allocate : (file, spelling) ∈ (fs.allocate path).paths ↔
    file = ⟨fs.next⟩ ∧ spelling = path ∨ (file, spelling) ∈ fs.paths ∧ file ≠ ⟨fs.next⟩ := by
  simp [allocate]

/-- A path that is not known is asked for, while numbers are left. -/
theorem Tracks.allocate (h : fs.Tracks log allocated) (hfind : fs.find? path = none)
    (hleft : allocated + 1 < UInt32.size) :
    (fs.allocate path).Tracks (log ++ [.numbered path ⟨fs.next⟩]) (allocated + 1) := by
  have hnext : (fs.allocate path).next = allocated + 1 := by
    show (fs.next + 1) % UInt32.size = allocated + 1
    rw [h.next_eq, Nat.mod_eq_of_lt hleft]
  have hmem {file} {spelling} : (file, spelling) ∈ (fs.allocate path).paths ↔
      file = ⟨fs.next⟩ ∧ spelling = path ∨ (file, spelling) ∈ fs.paths := by
    rw [mem_paths_allocate]
    exact or_congr_right (and_iff_left_of_imp h.ne_next_of_mem)
  have hnew {file} {spelling} (hmem : (file, spelling) ∈ fs.paths) :
      Path.ofText spelling ≠ Path.ofText path := fun hpath ↦
    Option.some_ne_none file ((h.find?_eq_some_iff.2 ⟨spelling, hmem, hpath⟩).symm.trans hfind)
  refine ⟨hnext, ?inverse, ?numbersNodup, ?pathsNodup, ?paths, ?live, ?givenTo, ?below, ?distinct,
    ?lines⟩
  case inverse =>
    intro spelling file
    rw [hmem, ← h.mem_numbers_iff]
    simp [Files.allocate, and_comm]
  case numbersNodup =>
    refine List.nodup_cons.2 ⟨fun hpath ↦ ?_, h.numbers_nodup⟩
    obtain ⟨⟨spelling, file⟩, hentry, hpath⟩ := List.mem_map.1 hpath
    exact hnew (h.mem_numbers_iff.1 hentry) hpath
  case pathsNodup =>
    refine List.nodup_cons.2 ⟨by simp, ?_⟩
    exact h.paths_nodup.sublist (List.filter_sublist.map _)
  case paths =>
    intro spelling file
    rw [hmem, h.mem_paths_iff, FileLog.spells_concat]
    refine or_congr ?_ (and_iff_left nofun).symm
    constructor
    · rintro ⟨rfl, rfl⟩
      exact ⟨rfl, h.not_live hfind⟩
    · rintro ⟨⟨⟩, -⟩
      exact ⟨rfl, rfl⟩
  case live =>
    intro path' file hlive
    rcases FileLog.live_concat.1 hlive with ⟨_, ⟨⟩, rfl⟩ | ⟨hlive, -⟩
    · exact ⟨path, hmem.2 (.inl ⟨rfl, rfl⟩), rfl⟩
    · obtain ⟨spelling, hspelling, hpath⟩ := h.exists_of_live hlive
      exact ⟨spelling, hmem.2 (.inr hspelling), hpath⟩
  case givenTo =>
    intro spelling file hspelling
    rcases hmem.1 hspelling with ⟨rfl, rfl⟩ | hspelling
    · refine (FileLog.GivenTo.of_not_mem h.next_not_mem).concat ?_ nofun
      rintro _ ⟨⟩
      rfl
    · refine (h.givenTo_of_mem hspelling).concat ?_ nofun
      rintro _ ⟨⟩
      exact absurd rfl (h.ne_next_of_mem hspelling)
  case below =>
    intro path' file hevent
    rw [hnext, ← h.next_eq]
    rcases List.mem_append.1 hevent with hevent | hevent
    · exact Nat.lt_succ_of_lt (h.index_lt_next hevent)
    · obtain ⟨rfl, rfl⟩ : path' = path ∧ file = ⟨fs.next⟩ := by simpa using hevent
      exact Nat.lt_succ_self _
  case distinct =>
    refine h.numbersByPath.concat ?_
    rintro before between earlier _ file _ ⟨⟩ hlog
    constructor
    · rintro rfl
      exact absurd (by simp [hlog]) (h.next_not_mem earlier)
    · rintro ⟨hpath, hbetween⟩
      obtain ⟨spelling, hspelling, hsame⟩ :=
        h.exists_of_live ⟨_, before, between, hlog, rfl, hbetween⟩
      exact absurd (hsame.trans hpath) (hnew hspelling)
  case lines =>
    intro file lines
    simp [h.lines?_eq_some_iff]

@[simp] theorem paths_setText (fs : Files) (file : FileId) (text : String) :
    (fs.setText file text).paths = fs.paths := rfl

/-- A text is that of one file. -/
theorem lines?_setText (fs : Files) (file : FileId) (text : String) (other : FileId) :
    (fs.setText file text).lines? other =
      if other = file then some (Lines.ofText text) else fs.lines? other := by
  rw [lines?, setText, List.lookup_cons, lookup_filter_ne, lines?]
  by_cases hother : other = file
  · simp [hother]
  · simp [hother, beq_false_of_ne]

theorem lines?_remove (fs : Files) (file other : FileId) :
    (fs.remove file).lines? other = if other = file then none else fs.lines? other :=
  lookup_filter_ne fs.texts file other

/-- A text is recorded, of a known file or not. -/
theorem Tracks.setText (h : fs.Tracks log allocated) (file : FileId) (text : String) :
    (fs.setText file text).Tracks (log ++ [.told file text]) allocated := by
  refine ⟨h.next_eq, h.mem_numbers_iff, h.numbers_nodup, h.paths_nodup, ?paths, ?live, ?givenTo,
    ?below, h.numbersByPath_concat nofun, ?lines⟩
  case paths =>
    intro spelling other
    simpa using h.mem_paths_iff
  case live =>
    intro path other hlive
    exact h.exists_of_live (by simpa using hlive)
  case givenTo =>
    intro spelling other hmem
    exact (h.givenTo_of_mem hmem).concat nofun nofun
  case below =>
    intro path other hmem
    exact h.index_lt_next (by simpa using hmem)
  case lines =>
    intro other lines
    rw [lines?_setText]
    by_cases hother : other = file
    · simp [hother, FileLog.tells_concat]
    · simp [hother, h.lines?_eq_some_iff, Ne.symm hother]

/-- A file is forgotten in both maps, although one of them is searched by its path. -/
theorem Tracks.mem_numbers_remove (h : fs.Tracks log allocated) :
    (spelling, other) ∈ (fs.remove file).numbers ↔
      (spelling, other) ∈ fs.numbers ∧ other ≠ file := by
  rw [Files.remove]
  cases hpath : fs.path? file with
  | none =>
    refine (and_iff_left_of_imp ?_).symm
    rintro hmem rfl
    rw [h.path?_eq_some_iff.2 (h.mem_numbers_iff.1 hmem)] at hpath
    cases hpath
  | some path =>
    have hentry : (path, file) ∈ fs.numbers := h.mem_numbers_iff.2 (h.path?_eq_some_iff.1 hpath)
    rw [List.mem_filter, Bool.not_eq_true', ← Bool.not_eq_true, Path.same_iff]
    refine and_congr_right fun hmem ↦ not_congr ⟨fun hsame ↦ ?_, ?_⟩
    · exact congrArg Prod.snd (List.inj_on_of_nodup_map h.numbers_nodup hmem hentry hsame)
    · rintro rfl
      have hspelling := h.path?_eq_some_iff.2 (h.mem_numbers_iff.1 hmem)
      exact congrArg Path.ofText (Option.some.inj (hspelling.symm.trans hpath))

/-- A file is forgotten, whether it was known or not. -/
theorem Tracks.remove (h : fs.Tracks log allocated) (file : FileId) :
    (fs.remove file).Tracks (log ++ [.forgotten file]) allocated := by
  have hmem {spelling} {other} : (other, spelling) ∈ (fs.remove file).paths ↔
      (other, spelling) ∈ fs.paths ∧ other ≠ file := by
    simp [Files.remove]
  have hsublist : (fs.remove file).numbers.Sublist fs.numbers := by
    rw [Files.remove]
    split
    · exact List.filter_sublist
    · exact List.Sublist.refl _
  refine ⟨h.next_eq, ?inverse, h.numbers_nodup.sublist (hsublist.map _),
    h.paths_nodup.sublist (List.filter_sublist.map _), ?paths, ?live, ?givenTo, ?below,
    h.numbersByPath_concat nofun, ?lines⟩
  case inverse =>
    intro spelling other
    rw [hmem, ← h.mem_numbers_iff, h.mem_numbers_remove]
  case paths =>
    intro spelling other
    rw [hmem, h.mem_paths_iff]
    simp [eq_comm]
  case live =>
    intro path other hlive
    obtain ⟨hlive, hother⟩ : log.Live path other ∧ other ≠ file := by
      simpa [eq_comm] using hlive
    obtain ⟨spelling, hspelling, hpath⟩ := h.exists_of_live hlive
    exact ⟨spelling, hmem.2 ⟨hspelling, hother⟩, hpath⟩
  case givenTo =>
    intro spelling other hspelling
    obtain ⟨hspelling, hother⟩ := hmem.1 hspelling
    exact (h.givenTo_of_mem hspelling).concat nofun (by simpa using hother.symm)
  case below =>
    intro path other hmem
    exact h.index_lt_next (by simpa using hmem)
  case lines =>
    intro other lines
    rw [lines?_remove]
    by_cases hother : other = file
    · simp [hother]
    · simp [hother, h.lines?_eq_some_iff, Ne.symm hother]

end Files

end Schemata
