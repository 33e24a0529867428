import Stylebook.Source.Memory

/-!
# Files that others write to

Files in memory are shared: whoever holds them may write at any time, also between two questions that a
repository asks within one refresh. `SharedFiles` is the source that this makes. It carries every write that
is still to come, in batches, and before each question the next batch falls. A statement for every row of
batches is then a statement for every interleaving of writes with questions.

What a repository may rely on is `MemoryFiles.Later`: as the clock goes on, a file that is there was either
written since, and then bears a younger revision, or has the revision and the text that it had. So a revision
never comes to stand for another text of the same location.
-/

set_option autoImplicit false

namespace Stylebook

namespace MemoryFiles

/-! ## Revisions stand for readings of the clock -/

theorem stamp_inj {m : MemoryFiles} {n k : Nat} : m.stamp n = m.stamp k ↔ n = k := by
  refine ⟨fun h => ?_, fun h => h ▸ rfl⟩
  unfold stamp at h
  split at h
  · -- the digits between the quotes can be read back
    have quoted := Revision.etag.inj h
    rw [String.append_left_inj, String.append_right_inj] at quoted
    have digits := congrArg String.toList quoted
    rw [Nat.toString_eq_ofList_toDigits, Nat.toString_eq_ofList_toDigits, String.toList_ofList,
      String.toList_ofList] at digits
    calc n = Nat.ofDigitChars 10 (Nat.toDigits 10 n) 0 := Nat.ofDigitChars_ten_toDigits.symm
      _ = Nat.ofDigitChars 10 (Nat.toDigits 10 k) 0 := by rw [digits]
      _ = k := Nat.ofDigitChars_ten_toDigits
  · exact Revision.timestamp.inj h

theorem revision?_eq_some {m : MemoryFiles} {location : Location} {revision : Revision}
    (h : m.revision? location = some revision) :
    ∃ file, m.files.get? location = some file ∧ revision = m.stamp file.revision := by
  unfold revision? at h
  split at h
  · rename_i file hf
    split at h
    · cases h
    · exact ⟨file, hf, (Option.some.inj h).symm⟩
  · cases h

/-- A text is given where there is a file that is available. -/
theorem contents_eq_ok_iff {m : MemoryFiles} {location : Location} {text : String} :
    m.contents location = .ok text ↔
      ∃ file, m.files.get? location = some file ∧ file.unavailable = false ∧ file.text = text := by
  unfold contents
  cases m.files.get? location with
  | none => simp
  | some file => cases available : file.unavailable <;> simp [available]

theorem contents_eq_ok {m : MemoryFiles} {location : Location} {text : String}
    (h : m.contents location = .ok text) :
    ∃ file, m.files.get? location = some file ∧ file.text = text := by
  obtain ⟨file, found, -, same⟩ := contents_eq_ok_iff.mp h
  exact ⟨file, found, same⟩

/-- Attempts to read are counted, and change nothing that can be read. -/
theorem contents_countRead (m : MemoryFiles) (location : Location) :
    (m.countRead location).contents = m.contents := by
  funext k
  unfold countRead update
  cases found : m.files.get? location with
  | none => rfl
  | some file =>
    simp only [contents, Table.get?_insert]
    by_cases same : location = k
    · subst same
      simp [found]
    · simp [same]

/-! ## The clock goes on -/

/-- No file is younger than the clock. -/
def Dated (m : MemoryFiles) : Prop :=
  ∀ location file, m.files.get? location = some file → file.revision ≤ m.clock

/-- `m'` comes after `m`. -/
structure Later (m m' : MemoryFiles) : Prop where
  etags : m'.etags = m.etags
  clock : m.clock ≤ m'.clock
  /-- A file was written since, or it is as it was. -/
  files : ∀ location file', m'.files.get? location = some file' →
    (m.clock < file'.revision ∧ file'.revision ≤ m'.clock) ∨
      ∃ file, m.files.get? location = some file ∧ file.revision = file'.revision ∧ file.text = file'.text

theorem Later.refl (m : MemoryFiles) : m.Later m :=
  ⟨rfl, Nat.le_refl _, fun _ file h => .inr ⟨file, h, rfl, rfl⟩⟩

theorem Later.trans {m m' m'' : MemoryFiles} (first : m.Later m') (second : m'.Later m'') :
    m.Later m'' := by
  refine ⟨second.etags.trans first.etags, Nat.le_trans first.clock second.clock, ?_⟩
  intro location file'' h''
  -- the last write to the file, if any, falls into the second stretch or into the first
  rcases second.files location file'' h'' with ⟨young, dated⟩ | ⟨file', h', revision', text'⟩
  · exact .inl ⟨Nat.lt_of_le_of_lt first.clock young, dated⟩
  rcases first.files location file' h' with ⟨young, dated⟩ | ⟨file, h, revision, text⟩
  · rw [revision'] at young dated
    exact .inl ⟨young, Nat.le_trans dated second.clock⟩
  · exact .inr ⟨file, h, revision.trans revision', text.trans text'⟩

theorem Later.stamp {m m' : MemoryFiles} (later : m.Later m') (n : Nat) : m'.stamp n = m.stamp n := by
  unfold MemoryFiles.stamp
  rw [later.etags]

theorem Later.dated {m m' : MemoryFiles} (later : m.Later m') (h : m.Dated) : m'.Dated := by
  intro location file' h'
  rcases later.files location file' h' with ⟨-, dated⟩ | ⟨file, hf, revision, -⟩
  · exact dated
  · rw [← revision]
    exact Nat.le_trans (h location file hf) later.clock

/-- Storing a file makes later files, if the file is new or has kept its revision and its text. -/
theorem later_insert {m : MemoryFiles} {location : Location} {file : MemoryFile} {clock : Nat}
    (on : m.clock ≤ clock)
    (kind : (m.clock < file.revision ∧ file.revision ≤ clock) ∨
      ∃ old, m.files.get? location = some old ∧ old.revision = file.revision ∧ old.text = file.text) :
    m.Later { m with files := m.files.insert location file, clock := clock } := by
  refine ⟨rfl, on, fun k file' h' => ?_⟩
  rw [Table.get?_insert] at h'
  split at h'
  · rename_i same
    cases h'
    exact same ▸ kind
  · exact .inr ⟨file', h', rfl, rfl⟩

theorem later_tick {m : MemoryFiles} {clock : Nat} (on : m.clock ≤ clock) :
    m.Later { m with clock := clock } :=
  ⟨rfl, on, fun _ file h => .inr ⟨file, h, rfl, rfl⟩⟩

theorem later_write (m : MemoryFiles) (location : Location) (text : String) :
    m.Later (m.write location text) := by
  unfold write
  refine later_insert (Nat.le_succ _) (.inl ?_)
  cases m.files.get? location <;> exact ⟨Nat.lt_succ_self _, Nat.le_refl _⟩

theorem later_touch (m : MemoryFiles) (location : Location) : m.Later (m.touch location) := by
  unfold touch update
  dsimp only
  split
  · exact later_insert (Nat.le_succ _) (.inl ⟨Nat.lt_succ_self _, Nat.le_refl _⟩)
  · exact later_tick (Nat.le_succ _)

/-- A change that shows in neither the revision nor the text makes later files. -/
theorem later_update (m : MemoryFiles) (location : Location) {f : MemoryFile → MemoryFile}
    (same : ∀ file, (f file).revision = file.revision ∧ (f file).text = file.text) :
    m.Later (m.update location f) := by
  unfold update
  split
  · rename_i file h
    obtain ⟨revision, text⟩ := same file
    exact later_insert (Nat.le_refl _) (.inr ⟨file, h, revision.symm, text.symm⟩)
  · exact .refl m

theorem later_remove (m : MemoryFiles) (location : Location) : m.Later (m.remove location) := by
  refine ⟨rfl, Nat.le_refl _, fun k file' h' => ?_⟩
  unfold remove at h'
  rw [Table.get?_erase] at h'
  split at h'
  · cases h'
  · exact .inr ⟨file', h', rfl, rfl⟩

theorem later_countRead (m : MemoryFiles) (location : Location) : m.Later (m.countRead location) :=
  later_update m location fun _ => ⟨rfl, rfl⟩

end MemoryFiles

/-! ## Writes -/

/-- What someone else does to a file. -/
inductive FileWrite where
  | write (location : Location) (text : String)
  | touch (location : Location)
  | setUnavailable (location : Location) (flag : Bool)
  | remove (location : Location)

def FileWrite.apply (m : MemoryFiles) : FileWrite → MemoryFiles
  | .write location text => m.write location text
  | .touch location => m.touch location
  | .setUnavailable location flag => m.setUnavailable location flag
  | .remove location => m.remove location

theorem FileWrite.later_apply (w : FileWrite) (m : MemoryFiles) : m.Later (w.apply m) := by
  cases w with
  | write location text => exact m.later_write location text
  | touch location => exact m.later_touch location
  | setUnavailable location flag => exact m.later_update location fun _ => ⟨rfl, rfl⟩
  | remove location => exact m.later_remove location

theorem FileWrite.later_foldl (writes : List FileWrite) (m : MemoryFiles) :
    m.Later (writes.foldl FileWrite.apply m) := by
  induction writes generalizing m with
  | nil => exact .refl m
  | cons w rest ih => exact (w.later_apply m).trans (ih _)

/-! ## Questions with writes between them -/

/-- Files in memory that others write to. -/
structure SharedFiles where
  files : MemoryFiles
  /-- The writes that fall before each question that is still to come, the next question first. -/
  coming : List (List FileWrite)

namespace SharedFiles

/-- The writes that fall before the next question have fallen. -/
def settle (s : SharedFiles) : SharedFiles :=
  ⟨(s.coming.headD []).foldl FileWrite.apply s.files, s.coming.tail⟩

/-- Asks the files, after the writes that fall before. -/
def ask {α : Type} (s : SharedFiles) (question : MemoryFiles → α × MemoryFiles) : α × SharedFiles :=
  ((question s.settle.files).1, { s.settle with files := (question s.settle.files).2 })

instance : Source SharedFiles where
  resolveBundle s name := s.ask (Source.resolveBundle · name)
  isPresent s location := s.ask (Source.isPresent · location)
  read s location := s.ask (Source.read · location)
  modified s location := s.ask (Source.modified · location)

/-- A write by someone else, outside of any question. -/
def outside (w : FileWrite) (s : SharedFiles) : SharedFiles :=
  { s with files := w.apply s.files }

/-- No write falls before the next `count` questions. -/
def Quiet (s : SharedFiles) (count : Nat) : Prop :=
  ∀ writes ∈ s.coming.take count, writes = []

theorem later_settle (s : SharedFiles) : s.files.Later s.settle.files :=
  FileWrite.later_foldl _ _

theorem Quiet.settle {s : SharedFiles} {count : Nat} (quiet : s.Quiet (count + 1)) :
    s.settle.files = s.files ∧ s.settle.Quiet count := by
  obtain ⟨files, coming⟩ := s
  cases coming with
  | nil => exact ⟨rfl, fun writes h => absurd h (by simp [SharedFiles.settle])⟩
  | cons writes rest =>
    have none : writes = [] := quiet writes (by simp)
    subst none
    exact ⟨rfl, fun writes h => quiet writes (List.mem_cons_of_mem _ h)⟩

end SharedFiles

end Stylebook
