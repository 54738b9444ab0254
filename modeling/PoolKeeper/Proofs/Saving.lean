import Mathlib.Data.List.Basic
import PoolKeeper.Fetch.Cache
import PoolKeeper.Storage.FileTree

/-!
# Saved documents

A document is saved by way of a temporary file. What stands in the way of that is known beforehand,
and no other file is touched.

* `FileTree.file?_set_self`, `FileTree.file?_set_of_ne`, `FileTree.file?_erase_of_ne`: what an
  operation makes of each file;
* `Store.Ready`: nothing stands in the way of a document; `Store.Saves`, **`Store.save_spec`**: what
  saving a document does; `Store.save_eq_ok_iff`, `Store.ready_save_iff`: it works exactly when
  nothing stands in the way, and nothing comes to stand there;
* `Store.Stage`, `Store.operate`: the file operations of a save, one by one;
  **`Store.save_eq_stages`**: a save is these;
* `Store.join_load`, `Cache.restored_eq`: what is read depends on the file alone.
-/

namespace PoolKeeper

namespace FileTree

variable (t : FileTree) {p q : Path} {s : String}

/-! ## Files -/

theorem lookup_filter_ne (files : List (Path × String)) (h : q ≠ p) :
    (files.filter (·.1 != p)).lookup q = files.lookup q := by
  induction files with
  | nil => rfl
  | cons file rest ih =>
    obtain ⟨r, s⟩ := file
    by_cases hr : r = p
    · have hq : (q == r) = false := by simpa [hr] using h
      rw [List.filter_cons_of_neg (by simp [hr]), ih, List.lookup_cons, hq]
    · rw [List.filter_cons_of_pos (by simp [hr]), List.lookup_cons, List.lookup_cons, ih]

theorem file?_erase_of_ne (h : q ≠ p) : (t.erase p).file? q = t.file? q :=
  lookup_filter_ne t.files h

theorem file?_erase_self (p : Path) : (t.erase p).file? p = none := by
  refine Option.not_isSome_iff_eq_none.1 fun h => ?_
  obtain ⟨file, hmem, heq⟩ := List.lookup_isSome_iff.1 h
  have hne := (List.mem_filter.1 hmem).2
  simp [← eq_of_beq heq] at hne

theorem file?_set_self : (t.set p s).file? p = some s := List.lookup_cons_self

theorem file?_set_of_ne (h : q ≠ p) : (t.set p s).file? q = t.file? q := by
  have hq : (q == p) = false := by simpa using h
  show ((p, s) :: (t.erase p).files).lookup q = _
  rw [List.lookup_cons, hq]
  exact t.file?_erase_of_ne h

theorem isFile_eq (p : Path) : t.isFile p = (t.file? p).isSome := by
  rw [Bool.eq_iff_iff, file?, List.lookup_isSome_iff, isFile, List.any_eq_true]
  refine exists_congr fun file => and_congr_right fun _ => ?_
  rw [beq_iff_eq, beq_iff_eq, eq_comm]

/-! ## Directories -/

theorem prefix_of_mem_downTo (h : q ∈ downTo p) : q <+: p := by
  obtain ⟨n, _, rfl⟩ := List.mem_map.1 h
  exact List.take_prefix n p

theorem mem_downTo_self (p : Path) : p ∈ downTo p :=
  List.mem_map.2 ⟨p.length, List.mem_range.2 (Nat.lt_succ_self _), List.take_length⟩

theorem isBlocked_congr {t t' : FileTree}
    (h : ∀ q : Path, q <+: p → t'.file? q = t.file? q) :
    t'.isBlocked p = t.isBlocked p := by
  rw [isBlocked, isBlocked, Bool.eq_iff_iff, List.any_eq_true, List.any_eq_true]
  refine exists_congr fun q => and_congr_right fun hq => ?_
  have habove : q <+: p := (prefix_of_mem_downTo hq).trans (List.dropLast_prefix p)
  rw [isFile_eq, isFile_eq, h q habove]

/-- The tree with a directory and those above it. -/
def withDirs (t : FileTree) (p : Path) : FileTree :=
  ⟨t.files, t.dirs ++ (downTo p).filter fun q => !t.isDir q⟩

theorem isDir_withDirs_self (p : Path) : (t.withDirs p).isDir p = true := by
  by_cases h : t.isDir p = true
  · rw [isDir, Bool.or_eq_true] at h ⊢
    refine h.imp_right fun hmem => ?_
    rw [List.contains_iff_mem] at hmem ⊢
    exact List.mem_append_left _ hmem
  · have hnew : p ∈ (downTo p).filter fun q => !t.isDir q :=
      List.mem_filter.2 ⟨mem_downTo_self p, by simpa using h⟩
    rw [isDir, Bool.or_eq_true, List.contains_iff_mem]
    exact .inr (List.mem_append_right _ hnew)

theorem isDir_withDirs_of_not_prefix (h : ¬ q <+: p) : (t.withDirs p).isDir q = t.isDir q := by
  have hnew : q ∉ (downTo p).filter fun q => !t.isDir q := fun hq =>
    h (prefix_of_mem_downTo (List.mem_filter.1 hq).1)
  rw [isDir, isDir, Bool.eq_iff_iff, Bool.or_eq_true, Bool.or_eq_true, List.contains_iff_mem,
    List.contains_iff_mem]
  refine or_congr_right ⟨fun hmem => ?_, List.mem_append_left _⟩
  exact (List.mem_append.1 hmem).resolve_right hnew

/-! ## Operations -/

theorem createDirs_eq (hblocked : t.isBlocked p = false) (hfile : t.isFile p = false) :
    t.createDirs p = (.ok (), t.withDirs p) := by
  rw [createDirs, hblocked, hfile]
  rfl

theorem write_eq (hdir : t.isDir p = false) (habove : t.isDir p.dropLast = true) :
    t.write p s = (.ok (), t.set p s) := by
  rw [write, hdir, habove]
  rfl

theorem createDirs_cases (p : Path) :
    (t.isBlocked p = false ∧ t.isFile p = false ∧ t.createDirs p = (.ok (), t.withDirs p)) ∨
      (¬ (t.isBlocked p = false ∧ t.isFile p = false) ∧ ∃ e, t.createDirs p = (.error e, t)) := by
  by_cases hblocked : t.isBlocked p = true
  · exact .inr ⟨fun h => by simp [h.1] at hblocked, _, if_pos hblocked⟩
  by_cases hfile : t.isFile p = true
  · refine .inr ⟨fun h => by simp [h.2] at hfile, "File exists", ?_⟩
    rw [createDirs, if_neg hblocked, if_pos hfile]
  rw [Bool.not_eq_true] at hblocked hfile
  exact .inl ⟨hblocked, hfile, t.createDirs_eq hblocked hfile⟩

theorem write_cases (p : Path) (s : String) :
    (t.isDir p = false ∧ t.write p s = (.ok (), t.set p s)) ∨
      (t.isDir p = true ∨ t.isDir p.dropLast = false) ∧ ∃ e, t.write p s = (.error e, t) := by
  unfold write
  split_ifs with hdir habove
  · exact .inr ⟨.inl hdir, _, rfl⟩
  · exact .inl ⟨Bool.not_eq_true _ ▸ hdir, rfl⟩
  · exact .inr ⟨.inr (Bool.not_eq_true _ ▸ habove), _, rfl⟩
  · exact .inr ⟨.inr (Bool.not_eq_true _ ▸ habove), _, rfl⟩

theorem rename_cases (p target : Path) :
    (∃ s, t.file? p = some s ∧ t.isDir target = false ∧
        t.rename p target = (.ok (), (t.erase p).set target s)) ∨
      (t.file? p = none ∨ t.isDir target = true ∨ t.isDir target.dropLast = false) ∧
        ∃ e, t.rename p target = (.error e, t) := by
  unfold rename
  cases t.file? p with
  | none => exact .inr ⟨.inl rfl, _, rfl⟩
  | some s =>
    simp only
    split_ifs with hdir habove
    · exact .inr ⟨.inr (.inl hdir), _, rfl⟩
    · exact .inl ⟨s, rfl, Bool.not_eq_true _ ▸ hdir, rfl⟩
    · exact .inr ⟨.inr (.inr (Bool.not_eq_true _ ▸ habove)), _, rfl⟩

theorem rename_eq {target : Path} (hfile : t.file? p = some s) (hdir : t.isDir target = false)
    (habove : t.isDir target.dropLast = true) :
    t.rename p target = (.ok (), (t.erase p).set target s) := by
  rw [rename, hfile, hdir, habove]
  rfl

end FileTree

namespace Store

variable {α : Type} (store : Store) (c : Codec α) {name other : String} (x : α) {t t' : FileTree}

/-! ## Names -/

/-- The name of a file in the directory itself. -/
def IsName (name : String) : Prop := '/' ∉ name.toList

instance (name : String) : Decidable (IsName name) := inferInstanceAs (Decidable (_ ∉ _))

theorem ofText_of_isName (h : IsName name) : Path.ofText name = [name] := by
  rw [Path.ofText, List.splitOn_eq_singleton h, List.map_singleton, String.ofList_toList]

theorem path_of_isName (h : IsName name) : store.path name = store.dir ++ [name] := by
  rw [path, ofText_of_isName h]

theorem length_path (h : IsName name) : (store.path name).length = store.dir.length + 1 := by
  rw [store.path_of_isName h, List.length_append, List.length_singleton]

theorem dropLast_path (h : IsName name) : (store.path name).dropLast = store.dir := by
  rw [store.path_of_isName h, List.dropLast_concat]

theorem path_ne (h : IsName name) (h' : IsName other) (hne : name ≠ other) :
    store.path name ≠ store.path other := by
  rw [store.path_of_isName h, store.path_of_isName h']
  exact fun heq => hne (List.singleton_inj.1 (List.append_cancel_left heq))

theorem IsName.temporary (h : IsName name) : IsName (name ++ ".tmp") := by
  rw [IsName, String.toList_append, List.mem_append]
  exact not_or.2 ⟨h, by decide⟩

theorem temporary_ne_path (h : IsName name) : store.temporary name ≠ store.path name := by
  refine store.path_ne h.temporary h fun heq => ?_
  have hlength := congrArg String.length heq
  rw [String.length_append] at hlength
  exact absurd hlength (by simp)

/-! ## Saving -/

/-- Nothing stands in the way of a document. -/
structure Ready (store : Store) (name : String) (t : FileTree) : Prop where
  unblocked : t.isBlocked store.dir = false
  notFile : t.isFile store.dir = false
  temporary : t.isDir (store.temporary name) = false
  document : t.isDir (store.path name) = false

instance (store : Store) (name : String) (t : FileTree) : Decidable (store.Ready name t) :=
  decidable_of_iff (t.isBlocked store.dir = false ∧ t.isFile store.dir = false ∧
      t.isDir (store.temporary name) = false ∧ t.isDir (store.path name) = false)
    ⟨fun h => ⟨h.1, h.2.1, h.2.2.1, h.2.2.2⟩,
      fun h => ⟨h.unblocked, h.notFile, h.temporary, h.document⟩⟩

/-- A document was saved as a text, or something stood in its way and the old one stays. No file
but the temporary one is touched besides, and no directory is made but the store's own and those
above it. -/
structure Saves (store : Store) (name text : String) (t : FileTree)
    (result : Except StorageError Unit × FileTree) : Prop where
  outcome :
    (result.1 = .ok () ∧ store.Ready name t ∧ result.2.file? (store.path name) = some text) ∨
      ((∃ e, result.1 = .error e) ∧ ¬ store.Ready name t ∧
        result.2.file? (store.path name) = t.file? (store.path name))
  others (q : Path) : q ≠ store.path name → q ≠ store.temporary name →
    result.2.file? q = t.file? q
  dirs (q : Path) : store.dir.length < q.length → result.2.isDir q = t.isDir q

variable {store x} {text : String} {e : StorageError}

theorem Saves.of_error (h : IsName name) (hnot : ¬ store.Ready name t)
    (hfiles : ∀ q, q ≠ store.temporary name → t'.file? q = t.file? q)
    (hdirs : ∀ q : Path, store.dir.length < q.length → t'.isDir q = t.isDir q) :
    store.Saves name text t (.error e, t') where
  outcome := .inr ⟨⟨e, rfl⟩, hnot, hfiles _ (store.temporary_ne_path h).symm⟩
  others q _ hq := hfiles q hq
  dirs := hdirs

/-- **What saving a document does.** -/
theorem save_spec (h : IsName name) :
    store.Saves name (c.toText x) t (store.save FileTree.system c name x t) := by
  unfold save FileTree.system
  by_cases hblocked : t.isBlocked store.dir = true
  · simp only [FileTree.createDirs, if_pos hblocked]
    exact .of_error h (fun hr => by simp [hr.unblocked] at hblocked) (fun _ _ => rfl) fun _ _ => rfl
  by_cases hplain : t.isFile store.dir = true
  · simp only [FileTree.createDirs, if_neg hblocked, if_pos hplain]
    exact .of_error h (fun hr => by simp [hr.notFile] at hplain) (fun _ _ => rfl) fun _ _ => rfl
  rw [Bool.not_eq_true] at hblocked hplain
  have habove := t.isDir_withDirs_self store.dir
  have hdirs : ∀ q : Path, store.dir.length < q.length →
      (t.withDirs store.dir).isDir q = t.isDir q := fun q hq =>
    t.isDir_withDirs_of_not_prefix fun hpre => absurd hpre.length_le (Nat.not_le.2 hq)
  have hdeep : ∀ {n : String}, IsName n → store.dir.length < (store.path n).length := fun hn => by
    rw [store.length_path hn]
    exact Nat.lt_succ_self _
  simp only [FileTree.createDirs_eq _ hblocked hplain]
  have hplace : ∀ {n : String}, IsName n →
      (t.withDirs store.dir).isDir (store.path n).dropLast = true := fun hn => by
    rw [store.dropLast_path hn, habove]
  by_cases htemp : t.isDir (store.temporary name) = true
  · have hmade := (hdirs (store.temporary name) (hdeep h.temporary)).trans htemp
    simp only [FileTree.write, if_pos hmade]
    exact .of_error h (fun hr => by simp [hr.temporary] at htemp) (fun _ _ => rfl) hdirs
  rw [Bool.not_eq_true] at htemp
  let written := (t.withDirs store.dir).set (store.temporary name) (c.toText x)
  have hwrite : (t.withDirs store.dir).write (store.temporary name) (c.toText x) =
      (.ok (), written) :=
    FileTree.write_eq _ ((hdirs _ (hdeep h.temporary)).trans htemp) (hplace h.temporary)
  have hfile : written.file? (store.temporary name) = some (c.toText x) :=
    FileTree.file?_set_self _
  have hothers : ∀ q, q ≠ store.temporary name → written.file? q = t.file? q := fun q hq =>
    FileTree.file?_set_of_ne _ hq
  simp only [hwrite]
  by_cases hdoc : t.isDir (store.path name) = true
  · have hmade : written.isDir (store.path name) = true := (hdirs _ (hdeep h)).trans hdoc
    simp only [FileTree.rename, hfile, if_pos hmade]
    exact .of_error h (fun hr => by simp [hr.document] at hdoc) hothers hdirs
  rw [Bool.not_eq_true] at hdoc
  have hrename := FileTree.rename_eq written hfile ((hdirs _ (hdeep h)).trans hdoc) (hplace h)
  simp only [hrename]
  refine ⟨.inl ⟨rfl, ⟨hblocked, hplain, htemp, hdoc⟩, FileTree.file?_set_self _⟩,
    fun q hq hq' => ?_, hdirs⟩
  rw [FileTree.file?_set_of_ne _ hq, FileTree.file?_erase_of_ne _ hq', hothers q hq']

theorem file?_save (h : IsName name) :
    (store.save FileTree.system c name x t).2.file? (store.path name) =
      if store.Ready name t then some (c.toText x) else t.file? (store.path name) := by
  rcases (save_spec c h).outcome with ⟨_, hready, hfile⟩ | ⟨_, hnot, hfile⟩
  · rw [if_pos hready]
    exact hfile
  · rw [if_neg hnot]
    exact hfile

theorem file?_save_of_ne (h : IsName name) (ho : IsName other) (hne : other ≠ name)
    (hne' : other ≠ name ++ ".tmp") :
    (store.save FileTree.system c name x t).2.file? (store.path other) =
      t.file? (store.path other) :=
  (save_spec c h).others _ (store.path_ne ho h hne) (store.path_ne ho h.temporary hne')

/-- Nothing has come in the way of documents, and nothing was cleared away: there are the same files
down to the directory, and the same directories below. -/
structure Clear (store : Store) (t t' : FileTree) : Prop where
  files (q : Path) : q.length ≤ store.dir.length → t'.file? q = t.file? q
  dirs (q : Path) : store.dir.length < q.length → t'.isDir q = t.isDir q

theorem lt_length_path (h : IsName name) : store.dir.length < (store.path name).length := by
  rw [store.length_path h]
  exact Nat.lt_succ_self _

theorem Clear.ready_iff (hclear : store.Clear t t') (h : IsName name) :
    store.Ready name t' ↔ store.Ready name t := by
  have hblocked := FileTree.isBlocked_congr fun q hq => hclear.files q hq.length_le
  have hfile : t'.isFile store.dir = t.isFile store.dir := by
    rw [FileTree.isFile_eq, hclear.files _ (Nat.le_refl _), ← FileTree.isFile_eq]
  have htemporary : t'.isDir (store.temporary name) = t.isDir (store.temporary name) :=
    hclear.dirs _ (lt_length_path h.temporary)
  have hdocument := hclear.dirs _ (lt_length_path h)
  constructor
  · rintro ⟨hb, hf, ht, hd⟩
    exact ⟨hblocked ▸ hb, hfile ▸ hf, htemporary ▸ ht, hdocument ▸ hd⟩
  · rintro ⟨hb, hf, ht, hd⟩
    exact ⟨hblocked.trans hb, hfile.trans hf, htemporary.trans ht, hdocument.trans hd⟩

theorem ne_path_of_length_le {q : Path} (hq : q.length ≤ store.dir.length) (h : IsName name) :
    q ≠ store.path name :=
  fun heq => absurd (heq ▸ lt_length_path h) (Nat.not_lt.2 hq)

/-- Saving a document puts nothing in the way of others, and clears nothing away. -/
theorem ready_save_iff (h : IsName name) (ho : IsName other) :
    store.Ready other (store.save FileTree.system c name x t).2 ↔ store.Ready other t := by
  have hsaves : store.Saves name (c.toText x) t (store.save FileTree.system c name x t) :=
    save_spec c h
  refine Clear.ready_iff ⟨fun q hq => ?_, hsaves.dirs⟩ ho
  exact hsaves.others q (ne_path_of_length_le hq h) (ne_path_of_length_le hq h.temporary)

/-! ## The stages of a save -/

/-- The file operations of a save, one after the other. -/
inductive Stage where
  | makeDirs
  | write
  | replace
deriving DecidableEq, Repr

/-- The one that comes next, unless this one fails. -/
def Stage.next : Stage → Option Stage
  | makeDirs => some write
  | write => some replace
  | replace => none

/-- A file operation of a save. -/
def operate {φ : Type} (store : Store) (fs : FileSystem φ) (name text : String) (stage : Stage)
    (files : φ) : Except String Unit × φ :=
  match stage with
  | .makeDirs => fs.createDirs store.dir files
  | .write => fs.write (store.temporary name) text files
  | .replace => fs.rename (store.temporary name) (store.path name) files

/-- The files after several operations of a save, or after the first that fails. -/
def operateAll {φ : Type} (store : Store) (fs : FileSystem φ) (name text : String) :
    List Stage → φ → φ
  | [], files => files
  | stage :: rest, files =>
    match store.operate fs name text stage files with
    | (.ok (), files) => operateAll store fs name text rest files
    | (.error _, files) => files

/-- **A save is its file operations.** -/
theorem save_eq_stages {φ : Type} (fs : FileSystem φ) (files : φ) :
    (store.save fs c name x files).2 =
      store.operateAll fs name (c.toText x) [.makeDirs, .write, .replace] files := by
  simp only [save, operateAll, operate]
  generalize fs.createDirs store.dir files = made
  obtain ⟨why | _, files⟩ := made
  · rfl
  · simp only
    generalize fs.write (store.temporary name) (c.toText x) files = written
    obtain ⟨why | _, files⟩ := written
    · rfl
    · simp only
      generalize fs.rename (store.temporary name) (store.path name) files = replaced
      obtain ⟨why | _, files⟩ := replaced
      · rfl
      · rfl

/-- What a file operation of a save makes of the files when it works. -/
inductive Done (store : Store) (name text : String) (t : FileTree) : Stage → FileTree → Prop
  | makeDirs : Done store name text t .makeDirs (t.withDirs store.dir)
  | write : Done store name text t .write (t.set (store.temporary name) text)
  | replace {s : String} : t.file? (store.temporary name) = some s →
    Done store name text t .replace ((t.erase (store.temporary name)).set (store.path name) s)

/-- A file operation is done, or fails and changes nothing. -/
theorem operate_cases (text : String) (stage : Stage) (t : FileTree) :
    (∃ t', store.operate FileTree.system name text stage t = (.ok (), t') ∧
      store.Done name text t stage t') ∨
    ∃ e, store.operate FileTree.system name text stage t = (.error e, t) := by
  cases stage with
  | makeDirs =>
    rcases t.createDirs_cases store.dir with ⟨_, _, heq⟩ | ⟨_, herror⟩
    · exact .inl ⟨_, heq, .makeDirs⟩
    · exact .inr herror
  | write =>
    rcases t.write_cases (store.temporary name) text with ⟨_, heq⟩ | ⟨_, herror⟩
    · exact .inl ⟨_, heq, .write⟩
    · exact .inr herror
  | replace =>
    rcases t.rename_cases (store.temporary name) (store.path name) with
      ⟨s, hfile, _, heq⟩ | ⟨_, herror⟩
    · exact .inl ⟨_, heq, .replace hfile⟩
    · exact .inr herror

/-- No file operation puts anything in the way of documents, or clears anything away. -/
theorem Done.clear {stage : Stage} (hdone : store.Done name text t stage t') (h : IsName name) :
    store.Clear t t' := by
  cases hdone with
  | makeDirs =>
    refine ⟨fun _ _ => rfl, fun q hq => t.isDir_withDirs_of_not_prefix fun hpre => ?_⟩
    exact absurd hpre.length_le (Nat.not_le.2 hq)
  | write =>
    exact ⟨fun q hq => t.file?_set_of_ne (ne_path_of_length_le hq h.temporary), fun _ _ => rfl⟩
  | replace =>
    refine ⟨fun q hq => ?_, fun _ _ => rfl⟩
    have hne : q ≠ store.temporary name := ne_path_of_length_le hq h.temporary
    rw [FileTree.file?_set_of_ne _ (ne_path_of_length_le hq h), FileTree.file?_erase_of_ne _ hne]

/-- A save of a text has come as far as this file operation. -/
def Reached (store : Store) (name text : String) (t : FileTree) : Stage → Prop
  | .makeDirs => True
  | .write => t.isBlocked store.dir = false ∧ t.isFile store.dir = false ∧ t.isDir store.dir = true
  | .replace => t.isBlocked store.dir = false ∧ t.isFile store.dir = false ∧
    t.isDir store.dir = true ∧ t.isDir (store.temporary name) = false ∧
    t.file? (store.temporary name) = some text

/-- **A save that nothing else interferes with** comes to its end exactly when nothing stands in its
way. -/
theorem operate_reached {stage : Stage} (h : IsName name)
    (hreached : store.Reached name text t stage) :
    (∃ t', store.operate FileTree.system name text stage t = (.ok (), t') ∧
      match stage.next with
      | some next => store.Reached name text t' next
      | none => store.Ready name t) ∨
    (∃ e, store.operate FileTree.system name text stage t = (.error e, t)) ∧
      ¬ store.Ready name t := by
  cases stage with
  | makeDirs =>
    rcases t.createDirs_cases store.dir with ⟨hblocked, hfile, heq⟩ | ⟨hnot, herror⟩
    · exact .inl ⟨_, heq, hblocked, hfile, t.isDir_withDirs_self store.dir⟩
    · exact .inr ⟨herror, fun hready => hnot ⟨hready.unblocked, hready.notFile⟩⟩
  | write =>
    obtain ⟨hblocked, hfile, hdir⟩ := hreached
    rcases t.write_cases (store.temporary name) text with ⟨htemporary, heq⟩ | ⟨hcause, herror⟩
    · have hclear : store.Clear t (t.set (store.temporary name) text) := Done.write.clear h
      refine .inl ⟨_, heq, ?_, ?_, hdir, htemporary, t.file?_set_self⟩
      · rwa [FileTree.isBlocked_congr fun q hq => hclear.files q hq.length_le]
      · rwa [FileTree.isFile_eq, hclear.files _ (Nat.le_refl _), ← FileTree.isFile_eq]
    · rw [temporary, store.dropLast_path h.temporary, hdir] at hcause
      have htemporary : t.isDir (store.temporary name) = true :=
        hcause.resolve_right fun h => by cases h
      exact .inr ⟨herror, fun hready => by cases htemporary.symm.trans hready.temporary⟩
  | replace =>
    obtain ⟨hblocked, hfile, hdir, htemporary, htext⟩ := hreached
    rcases t.rename_cases (store.temporary name) (store.path name) with
      ⟨_, _, hdocument, heq⟩ | ⟨hcause, herror⟩
    · exact .inl ⟨_, heq, hblocked, hfile, htemporary, hdocument⟩
    · rw [htext, store.dropLast_path h, hdir] at hcause
      have hdocument : t.isDir (store.path name) = true :=
        (hcause.resolve_left fun h => by cases h).resolve_right fun h => by cases h
      exact .inr ⟨herror, fun hready => by cases hdocument.symm.trans hready.document⟩

/-! ## Loading -/

theorem join_load (store : Store) (c : Codec α) (name : String) (t : FileTree) :
    (store.load FileTree.system c name t).toOption.join =
      (t.file? (store.path name)).bind c.ofText? := by
  simp only [load, FileTree.system, FileTree.read]
  cases t.file? (store.path name) with
  | none =>
    simp only [Option.bind_none]
    split_ifs <;> rfl
  | some text =>
    simp only [Option.bind_some]
    cases c.ofText? text with
    | none => rfl
    | some x => rfl

end Store

theorem Snapshot.isName_file : Store.IsName Snapshot.file := by decide

namespace Cache

theorem restored_eq (store : Store) (poolName : String) (t : FileTree) :
    restored FileTree.system store poolName t =
      ((t.file? (store.path Snapshot.file)).bind Snapshot.codec.ofText?).bind fun s =>
        if s.poolName = poolName then some s.pool else none := by
  rw [← Store.join_load, restored]
  cases store.load FileTree.system Snapshot.codec Snapshot.file t with
  | error e => rfl
  | ok saved =>
    cases saved with
    | none => rfl
    | some s => rfl

end Cache

end PoolKeeper
