import Mathlib.Logic.Function.Basic
import PoolKeeper.Controller.Station
import PoolKeeper.Proofs.RoundTrip
import PoolKeeper.Proofs.Saving

/-!
# Documents are replaced whole

A document that is saved takes the place of the old one all at once, or the old one stays.

* `Path.resolved`: where a path leads; `Store.IsProper`, `Store.Outside`: names of documents, and
  names that have nothing to do with another one; `Path.exists_ofText_append`: the name of a
  temporary file;
* `Store.Careful`: file systems that do what they are asked to and touch nothing else;
  **`FileTree.careful`**, **`FileTree.resolving_careful`**: trees of files are that;
* `Store.Replaces`, **`Store.replaces_save`**: what a save does there;
* `Store.reading`: what a document of some text is loaded as;
* `Document`, `Archive`: the documents that a station keeps, and what was last saved of each;
  `Archive.UpToDate`, **`Archive.upToDate_after`**: those are what the files hold;
* **`Store.replaced_whole`**: all of that for whoever loads; **`Store.save_imprecise`**: not every
  value is loaded as it was saved, and a document can be in the way of others.
-/

namespace PoolKeeper

/-! ## Names -/

namespace Path

/-- What is put behind words is put behind the last name of the path that they spell. -/
theorem exists_ofText_append (s more : String) (h : '/' ∉ more.toList) :
    ∃ (above : Path) (last : String), ofText s = above ++ [last] ∧
      ofText (s ++ more) = above ++ [last ++ more] := by
  have hsplit : ∀ cs : List Char, ∃ (above : List (List Char)) (last : List Char),
      cs.splitOn '/' = above ++ [last] ∧
        (cs ++ more.toList).splitOn '/' = above ++ [last ++ more.toList] := by
    intro cs
    induction cs with
    | nil => exact ⟨[], [], List.splitOn_nil _, List.splitOn_eq_singleton h⟩
    | cons c cs ih =>
      obtain ⟨above, last, hcs, hmore⟩ := ih
      rw [List.splitOn] at hcs hmore
      rw [List.splitOn, List.splitOn, List.cons_append, List.splitOnP_cons_eq_if_modifyHead,
        List.splitOnP_cons_eq_if_modifyHead, hcs, hmore]
      -- a slash begins a name, any other character belongs to the first one
      by_cases hslash : (c == '/') = true
      · rw [if_pos hslash, if_pos hslash]
        exact ⟨[] :: above, last, rfl, rfl⟩
      · rw [if_neg hslash, if_neg hslash]
        cases above with
        | nil => exact ⟨[], c :: last, rfl, rfl⟩
        | cons first above => exact ⟨(c :: first) :: above, last, rfl, rfl⟩
  obtain ⟨above, last, hs, hmore⟩ := hsplit s.toList
  refine ⟨above.map String.ofList, String.ofList last, ?_, ?_⟩
  · rw [ofText, hs, List.map_append]
    rfl
  · rw [ofText, String.toList_append, hmore, List.map_append, List.map_singleton,
      String.ofList_append, String.ofList_toList]

/-- A name on the way to a file that is not empty and does not stand for a directory that is there
anyway. -/
def IsPart (part : String) : Prop := part ≠ "" ∧ part ≠ "." ∧ part ≠ ".."

instance (part : String) : Decidable (IsPart part) := inferInstanceAs (Decidable (_ ∧ _ ∧ _))

/-- One name further on the way: an empty one and `.` stand for the directory itself, and `..` for
the one above. -/
def goTo (p : Path) (part : String) : Path :=
  if part = "" ∨ part = "." then p else if part = ".." then p.dropLast else p ++ [part]

/-- Where a path leads. -/
def resolved (p : Path) : Path := p.foldl goTo []

theorem resolved_eq_self {p : Path} (h : ∀ part ∈ p, IsPart part) : p.resolved = p := by
  have hgo : ∀ (above : Path), p.foldl goTo above = above ++ p := by
    induction p with
    | nil => exact fun above => (List.append_nil above).symm
    | cons part rest ih =>
      obtain ⟨hempty, hdot, hup⟩ := h part List.mem_cons_self
      intro above
      rw [List.foldl_cons, goTo, if_neg (not_or.2 ⟨hempty, hdot⟩), if_neg hup,
        ih fun part hpart => h part (List.mem_cons_of_mem _ hpart), List.append_assoc]
      rfl
  exact hgo []

end Path

namespace Store

/-- The name of a document: none of the names on the way to it is empty or stands for a directory
that is there anyway. -/
def IsProper (name : String) : Prop := ∀ part ∈ Path.ofText name, Path.IsPart part

/-- Another name spells neither the path of a document nor one inside it. -/
def Outside (name other : String) : Prop := ¬ Path.ofText name <+: Path.ofText other

variable {name other : String}

theorem outside_of_isName (h : IsName name) (ho : IsName other) (hne : name ≠ other) :
    Outside name other := by
  rw [Outside, ofText_of_isName h, ofText_of_isName ho]
  rintro ⟨rest, heq⟩
  exact hne (List.cons.inj heq).1

theorem IsProper.temporary (h : IsProper name) : IsProper (name ++ ".tmp") := by
  obtain ⟨above, last, hname, htemp⟩ :=
    Path.exists_ofText_append name ".tmp" (by decide)
  intro part hpart
  rw [htemp] at hpart
  rcases List.mem_append.1 hpart with hpart | hpart
  · exact h part (hname ▸ List.mem_append_left _ hpart)
  · have hlength : 4 ≤ part.length := by
      rw [List.mem_singleton.1 hpart, String.length_append]
      exact Nat.le_add_left _ _
    refine ⟨?_, ?_, ?_⟩
    · rintro rfl
      exact absurd hlength (by decide)
    · rintro rfl
      exact absurd hlength (by decide)
    · rintro rfl
      exact absurd hlength (by decide)

/-- A document has nothing to do with its temporary file. -/
theorem outside_temporary (name : String) : Outside (name ++ ".tmp") name := by
  obtain ⟨above, last, hname, htemp⟩ :=
    Path.exists_ofText_append name ".tmp" (by decide)
  rw [Outside, hname, htemp]
  intro hpre
  have heq := hpre.eq_of_length (by simp)
  have hlast := congrArg String.length (List.singleton_inj.1 (List.append_cancel_left heq))
  rw [String.length_append] at hlast
  exact absurd hlast (by simp)

theorem not_prefix_path (store : Store) (h : Outside name other) :
    ¬ store.path name <+: store.path other := fun hpre =>
  h ((List.prefix_append_right_inj store.dir).1 hpre)

end Store

/-! ## Careful file systems -/

namespace Store

variable {φ : Type}

/-- A file system that does to the documents of a store what it is asked to, and touches nothing
else: the directory is made, the temporary file is written, and renaming fails without effect or
replaces the target whole. -/
structure Careful (store : Store) (fs : FileSystem φ) : Prop where
  made {name : String} (hname : IsProper name) (files : φ) :
    fs.read (store.path name) (fs.createDirs store.dir files).2 = fs.read (store.path name) files
  written {name : String} (hname : IsProper name) (text : String) (files : φ) :
    (fs.write (store.path name) text files).1 = .ok () →
      fs.read (store.path name) (fs.write (store.path name) text files).2 = .text text
  writtenApart {name other : String} (hname : IsProper name) (hother : IsProper other)
    (hout : Outside name other) (text : String) (files : φ) :
    fs.read (store.path other) (fs.write (store.path name) text files).2 =
      fs.read (store.path other) files
  renamed {source target : String} (hsource : IsProper source) (htarget : IsProper target)
    (files : φ) :
    (fs.rename (store.path source) (store.path target) files).1 = .ok () →
      fs.read (store.path target) (fs.rename (store.path source) (store.path target) files).2 =
        fs.read (store.path source) files
  renamedApart {source target other : String} (hsource : IsProper source)
    (htarget : IsProper target) (hother : IsProper other) (files : φ) :
    (∃ why, (fs.rename (store.path source) (store.path target) files).1 = .error why) ∨
        Outside source other ∧ Outside target other →
      fs.read (store.path other) (fs.rename (store.path source) (store.path target) files).2 =
        fs.read (store.path other) files

end Store

namespace FileTree

variable {t t' : FileTree} {p q source target : Path} {s : String}

/-- What reading gives depends on the file and the directory there, and on the files above. -/
theorem read_congr (hfiles : ∀ r : Path, r <+: q → t'.file? r = t.file? r)
    (hdir : t'.isDir q = t.isDir q) : t'.read q = t.read q := by
  rw [read, read, hfiles q (List.prefix_refl q), hdir, isBlocked_congr hfiles]

theorem read_createDirs (h : ¬ q <+: p) : (t.createDirs p).2.read q = t.read q := by
  rcases t.createDirs_cases p with ⟨_, _, heq⟩ | ⟨_, e, heq⟩
  · rw [heq]
    exact read_congr (fun _ _ => rfl) (t.isDir_withDirs_of_not_prefix h)
  · rw [heq]

theorem read_set (h : ¬ p <+: q) : (t.set p s).read q = t.read q := by
  refine read_congr (fun r hr => t.file?_set_of_ne ?_) rfl
  rintro rfl
  exact h hr

theorem read_write (h : ¬ p <+: q) : (t.write p s).2.read q = t.read q := by
  rcases t.write_cases p s with ⟨_, heq⟩ | ⟨_, e, heq⟩
  · rw [heq]
    exact read_set h
  · rw [heq]

theorem read_of_file? (h : t.file? p = some s) : t.read p = .text s := by
  rw [read, h]

theorem read_write_self (h : (t.write p s).1 = .ok ()) : (t.write p s).2.read p = .text s := by
  rcases t.write_cases p s with ⟨_, heq⟩ | ⟨_, e, heq⟩
  · rw [heq]
    exact read_of_file? (file?_set_self t)
  · rw [heq] at h
    cases h

theorem read_erase (h : ¬ p <+: q) : (t.erase p).read q = t.read q := by
  refine read_congr (fun r hr => t.file?_erase_of_ne ?_) rfl
  rintro rfl
  exact h hr

/-- **Trees of files are careful.** -/
theorem careful (store : Store) : store.Careful system where
  made {name} _ files := by
    refine read_createDirs fun hpre => ?_
    have hshort := hpre.length_le
    obtain ⟨above, last, hname, _⟩ := Path.exists_ofText_append name ".tmp" (by decide)
    rw [Store.path, hname, List.length_append, List.length_append, List.length_singleton] at hshort
    omega
  written _ text files := read_write_self
  writtenApart _ _ hout text files := read_write (store.not_prefix_path hout)
  renamed {source target} _ _ files hok := by
    simp only [system] at hok ⊢
    rcases files.rename_cases (store.path source) (store.path target) with
      ⟨s, hfile, _, heq⟩ | ⟨_, why, heq⟩
    · rw [heq, read_of_file? hfile]
      exact read_of_file? (file?_set_self _)
    · rw [heq] at hok
      cases hok
  renamedApart {source target other} _ _ _ files h := by
    simp only [system] at h ⊢
    rcases files.rename_cases (store.path source) (store.path target) with
      ⟨s, _, _, heq⟩ | ⟨_, why, heq⟩
    · rw [heq] at h ⊢
      obtain ⟨hsource, htarget⟩ := h.resolve_left (by rintro ⟨_, ⟨⟩⟩)
      exact (read_set (store.not_prefix_path htarget)).trans
        (read_erase (store.not_prefix_path hsource))
    · rw [heq]

/-- The same operations where paths lead to what they stand for. -/
def resolving : FileSystem FileTree where
  read p := read p.resolved
  createDirs p := createDirs p.resolved
  write p := write p.resolved
  rename p target := rename p.resolved target.resolved

/-- **They are careful, too**, about names of documents. -/
theorem resolving_careful {store : Store} (hdir : ∀ part ∈ store.dir, Path.IsPart part) :
    store.Careful resolving := by
  have hpath {name : String} (hname : Store.IsProper name) :
      (store.path name).resolved = store.path name :=
    Path.resolved_eq_self fun part hpart =>
      (List.mem_append.1 hpart).elim (hdir part) (hname part)
  have hcareful := careful store
  constructor
  · intro name hname files
    simp only [resolving, Path.resolved_eq_self hdir, hpath hname]
    exact hcareful.made hname files
  · intro name hname text files
    simp only [resolving, hpath hname]
    exact hcareful.written hname text files
  · intro name other hname hother hout text files
    simp only [resolving, hpath hname, hpath hother]
    exact hcareful.writtenApart hname hother hout text files
  · intro source target hsource htarget files
    simp only [resolving, hpath hsource, hpath htarget]
    exact hcareful.renamed hsource htarget files
  · intro source target other hsource htarget hother files
    simp only [resolving, hpath hsource, hpath htarget, hpath hother]
    exact hcareful.renamedApart hsource htarget hother files

end FileTree

/-! ## Saving -/

namespace Store

variable {φ α : Type} {store : Store} {fs : FileSystem φ} {name : String} {files files' : φ}

/-- The document is replaced whole, or it stays; no other one is touched. -/
structure Replaces (store : Store) (fs : FileSystem φ) (name text : String) (files : φ)
    (result : Except StorageError Unit × φ) : Prop where
  saved : result.1 = .ok () → fs.read (store.path name) result.2 = .text text
  kept : ∀ e, result.1 = .error e →
    fs.read (store.path name) result.2 = fs.read (store.path name) files
  others : ∀ other, IsProper other → Outside name other → Outside (name ++ ".tmp") other →
    fs.read (store.path other) result.2 = fs.read (store.path other) files

/-- **What a save does.** -/
theorem replaces_save (h : store.Careful fs) (c : Codec α) (hname : IsProper name) (x : α)
    (files : φ) : store.Replaces fs name (c.toText x) files (store.save fs c name x files) := by
  have htemp := hname.temporary
  have hmade : ∀ other, IsProper other →
      fs.read (store.path other) (fs.createDirs store.dir files).2 =
        fs.read (store.path other) files := fun other hother => h.made hother files
  rw [save]
  generalize fs.createDirs store.dir files = step at hmade ⊢
  obtain ⟨_ | ⟨⟩, made⟩ := step
  -- without the directory nothing was written
  · exact ⟨fun hok => (by cases hok), fun _ _ => hmade name hname,
      fun other ho _ _ => hmade other ho⟩
  have hwritten : ∀ other, IsProper other → Outside (name ++ ".tmp") other →
      fs.read (store.path other) (fs.write (store.temporary name) (c.toText x) made).2 =
        fs.read (store.path other) files := fun other ho hout =>
    (h.writtenApart htemp ho hout (c.toText x) made).trans (hmade other ho)
  have hwhole := h.written htemp (c.toText x) made
  simp only [temporary] at hwritten ⊢
  generalize fs.write (store.path (name ++ ".tmp")) (c.toText x) made = step at hwritten hwhole ⊢
  obtain ⟨_ | ⟨⟩, written⟩ := step
  -- what a write that fails leaves behind is the temporary file's
  · exact ⟨fun hok => (by cases hok), fun _ _ => hwritten name hname (outside_temporary name),
      fun other ho _ hout => hwritten other ho hout⟩
  have hmoved := h.renamed htemp hname written
  have hstays := fun other (ho : IsProper other) => h.renamedApart htemp hname ho written
  simp only at hwritten hwhole ⊢
  generalize fs.rename (store.path (name ++ ".tmp")) (store.path name) written = step
    at hmoved hstays ⊢
  obtain ⟨e | ⟨⟩, moved⟩ := step
  -- a text that was written and not moved is in nobody's way
  · refine ⟨fun hok => (by cases hok), fun _ _ => ?_, fun other ho _ hout => ?_⟩
    · exact (hstays name hname (.inl ⟨e, rfl⟩)).trans
        (hwritten name hname (outside_temporary name))
    · exact (hstays other ho (.inl ⟨e, rfl⟩)).trans (hwritten other ho hout)
  · refine ⟨fun _ => (hmoved rfl).trans (hwhole trivial), fun e hfailed => (by cases hfailed),
      fun other ho hout hout' => ?_⟩
    exact (hstays other ho (.inr ⟨hout', hout⟩)).trans (hwritten other ho hout')

/-! ## Loading -/

/-- What a document of some text is loaded as. -/
def reading (store : Store) (c : Codec α) (name text : String) : Except StorageError (Option α) :=
  match c.ofText? text with
  | some x => .ok (some x)
  | none => .error (.serialization (Path.text (store.path name)) "unexpected content")

theorem load_of_text {text : String} (c : Codec α)
    (h : fs.read (store.path name) files = .text text) :
    store.load fs c name files = store.reading c name text := by
  simp only [load, h]
  rfl

theorem load_congr (c : Codec α)
    (h : fs.read (store.path name) files' = fs.read (store.path name) files) :
    store.load fs c name files' = store.load fs c name files := by
  simp only [load, h]

end Store

/-! ## The documents of a station -/

/-- The documents that a station keeps. -/
inductive Document where
  | config
  | snapshot
deriving DecidableEq, Repr

/-- A snapshot that is written exactly. -/
structure Snapshot.Plain (s : Snapshot) : Prop where
  pool : s.pool.Plain

namespace Snapshot

variable {s : Snapshot}

theorem Plain.exact (h : s.Plain) : (codec.encode s).Exact := ⟨h.pool.exact, trivial, trivial⟩

theorem Plain.reads (h : s.Plain) {depth : Nat} (hlevels : (codec.encode s).levels ≤ depth) :
    codec.decode.Reads depth (codec.encode s) s := by
  let members := [("pool", Pool.codec.encode s.pool), ("pool_name", Json.string s.poolName)]
  have hencode : codec.encode s = .object members := rfl
  have hslots : ["pool_name", "pool"].mapM (Decoder.slot? (Node.ofMembers members)) =
      some [.found (.ofJson (.string s.poolName)), .found (.ofJson (Pool.codec.encode s.pool))] := by
    simp [members, Decoder.slot?, Decoder.membersNamed_ofMembers]
  rw [hencode] at hlevels ⊢
  have hpart : (Pool.codec.encode s.pool).levels < (Json.object members).levels :=
    Json.levels_member (m := ("pool", _)) (by simp [members])
  obtain ⟨depth, rfl⟩ : ∃ k, depth = k + 1 := ⟨depth - 1, by omega⟩
  have hpool : Pool.codec.decode depth (.ofJson (Pool.codec.encode s.pool)) = some s.pool :=
    h.pool.reads (by omega)
  refine Decoder.reads_record hslots ?_
  simp only [Slot.required, hpool]
  rfl

end Snapshot

namespace Document

/-- What a document holds. -/
def Value : Document → Type
  | config => PoolConfig
  | snapshot => Snapshot

def name : Document → String
  | config => Station.configFile
  | snapshot => Snapshot.file

def codec : (d : Document) → Codec d.Value
  | config => PoolConfig.codec
  | snapshot => Snapshot.codec

/-- The value is written exactly, and not too deep. -/
def Plain : (d : Document) → d.Value → Prop
  | config, c => PoolConfig.Plain c ∧ (PoolConfig.codec.encode c).levels ≤ maxDepth
  | snapshot, s => Snapshot.Plain s ∧ (Snapshot.codec.encode s).levels ≤ maxDepth

variable {d d' : Document}

theorem ofText?_toText {x : d.Value} (h : d.Plain x) :
    d.codec.ofText? (d.codec.toText x) = some x := by
  cases d with
  | config =>
    have hdocs : PoolConfig.codec.RoundTrips PoolConfig.Plain :=
      .of_reads (fun _ h => h.exact) fun _ h hlevels => h.reads hlevels
    exact hdocs.decode Json.blank_indented h.1 h.2
  | snapshot =>
    have hdocs : Snapshot.codec.RoundTrips Snapshot.Plain :=
      .of_reads (fun _ h => h.exact) fun _ h hlevels => h.reads hlevels
    exact hdocs.decode Json.blank_indented h.1 h.2

theorem isName (d : Document) : Store.IsName d.name := by
  cases d with
  | config => decide
  | snapshot => decide

theorem isProper (d : Document) : Store.IsProper d.name := by
  rw [Store.IsProper, Store.ofText_of_isName d.isName]
  cases d with
  | config => decide
  | snapshot => decide

theorem outside (h : d ≠ d') : Store.Outside d.name d'.name := by
  refine Store.outside_of_isName d.isName d'.isName ?_
  cases d with
  | config => cases d' with
    | config => exact absurd rfl h
    | snapshot => decide
  | snapshot => cases d' with
    | config => decide
    | snapshot => exact absurd rfl h

theorem outside_temporary (d d' : Document) : Store.Outside (d.name ++ ".tmp") d'.name := by
  refine Store.outside_of_isName d.isName.temporary d'.isName ?_
  cases d with
  | config => cases d' with
    | config => decide
    | snapshot => decide
  | snapshot => cases d' with
    | config => decide
    | snapshot => decide

end Document

/-! ## Sequences -/

/-- Something done with a document. -/
inductive Errand where
  | save (d : Document) (x : d.Value)
  | load (d : Document)

/-- The files, and what was last saved of each document. -/
structure Archive (φ : Type) where
  files : φ
  last : (d : Document) → Option d.Value := fun _ => none

namespace Archive

variable {φ : Type} {store : Store} {fs : FileSystem φ}

/-- Does an errand. What is not saved does not count, and whoever loads only reads. -/
def perform (store : Store) (fs : FileSystem φ) (a : Archive φ) : Errand → Archive φ
  | .save d x =>
    match store.save fs d.codec d.name x a.files with
    | (.ok (), files) => { files, last := Function.update a.last d (some x) }
    | (.error _, files) => { a with files }
  | .load _ => a

theorem last_perform_save {a : Archive φ} {d : Document} {x : d.Value}
    (h : (store.save fs d.codec d.name x a.files).1 = .ok ()) :
    (a.perform store fs (.save d x)).last d = some x := by
  rw [perform]
  generalize store.save fs d.codec d.name x a.files = result at h ⊢
  obtain ⟨_ | ⟨⟩, files⟩ := result
  · cases h
  · exact Function.update_self ..

/-- What errands make of files. -/
def after (store : Store) (fs : FileSystem φ) (before : φ) (errands : List Errand) : Archive φ :=
  errands.foldl (perform store fs) { files := before }

/-- Each document is the one that was last saved, or the one that was there before. -/
def UpToDate (store : Store) (fs : FileSystem φ) (before : φ) (a : Archive φ) : Prop :=
  ∀ d, fs.read (store.path d.name) a.files =
    match a.last d with
    | some x => .text (d.codec.toText x)
    | none => fs.read (store.path d.name) before

theorem UpToDate.perform {before : φ} {a : Archive φ} (h : store.Careful fs)
    (ha : a.UpToDate store fs before) (errand : Errand) :
    (a.perform store fs errand).UpToDate store fs before := by
  cases errand with
  | load d => exact ha
  | save d x =>
    have hsave : store.Replaces fs d.name (d.codec.toText x) a.files
        (store.save fs d.codec d.name x a.files) := Store.replaces_save h d.codec d.isProper x a.files
    rw [Archive.perform]
    generalize store.save fs d.codec d.name x a.files = result at hsave ⊢
    intro d'
    have hother : d' ≠ d → fs.read (store.path d'.name) result.2 =
        fs.read (store.path d'.name) a.files := fun hne =>
      hsave.others d'.name d'.isProper (Document.outside hne.symm) (Document.outside_temporary d d')
    obtain ⟨e | ⟨⟩, files⟩ := result
    · refine Eq.trans ?_ (ha d')
      by_cases hd : d' = d
      · subst hd
        exact hsave.kept e rfl
      · exact hother hd
    · by_cases hd : d' = d
      · subst hd
        simp only [Function.update_self]
        exact hsave.saved rfl
      · simp only [Function.update_of_ne hd]
        exact (hother hd).trans (ha d')

theorem after_concat (before : φ) (errands : List Errand) (errand : Errand) :
    after store fs before (errands ++ [errand]) =
      (after store fs before errands).perform store fs errand :=
  List.foldl_concat ..

/-- **After any errands, each document is the one that was last saved.** -/
theorem upToDate_after (h : store.Careful fs) (before : φ) (errands : List Errand) :
    (after store fs before errands).UpToDate store fs before := by
  have hrun : ∀ a : Archive φ, a.UpToDate store fs before →
      (errands.foldl (perform store fs) a).UpToDate store fs before := by
    induction errands with
    | nil => exact fun a ha => ha
    | cons errand rest ih => exact fun a ha => ih _ (ha.perform h errand)
  exact hrun _ fun _ => rfl

end Archive

/-! ## All or nothing -/

namespace Store

variable {φ : Type} {store : Store} {fs : FileSystem φ}

/-- **Saving a document is all or nothing.** If it works, the document is loaded as what its text is
read as; if not, it is loaded as before, and so is any other one, whether it works or not. After any
saves and loads of the documents of a station, each is loaded as what was last saved, if that is
written exactly, or as at first, if none was. -/
theorem replaced_whole (h : store.Careful fs) :
    (∀ {α : Type} (c : Codec α) (name : String) (x : α) (files : φ), IsProper name →
      let answer := (store.save fs c name x files).1
      let after := (store.save fs c name x files).2
      (answer = .ok () → store.load fs c name after = store.reading c name (c.toText x)) ∧
      (∀ e, answer = .error e → ∀ {β : Type} (c' : Codec β),
        store.load fs c' name after = store.load fs c' name files) ∧
      ∀ other, IsProper other → Outside name other → Outside (name ++ ".tmp") other →
        ∀ {β : Type} (c' : Codec β),
          store.load fs c' other after = store.load fs c' other files) ∧
    ∀ (errands : List Errand) (before : φ) (d : Document),
      let archive := Archive.after store fs before errands
      (∀ x, archive.last d = some x →
        store.load fs d.codec d.name archive.files =
          store.reading d.codec d.name (d.codec.toText x) ∧
        (d.Plain x → store.load fs d.codec d.name archive.files = .ok (some x))) ∧
      (archive.last d = none →
        store.load fs d.codec d.name archive.files = store.load fs d.codec d.name before) := by
  refine ⟨fun c name x files hname => ?_, fun errands before d => ?_⟩
  · have hsave := replaces_save h c hname x files
    exact ⟨fun hok => load_of_text c (hsave.saved hok),
      fun e herror _ c' => load_congr c' (hsave.kept e herror),
      fun other ho hout hout' _ c' => load_congr c' (hsave.others other ho hout hout')⟩
  · intro archive
    have hdoc : fs.read (store.path d.name) archive.files =
        match archive.last d with
        | some x => .text (d.codec.toText x)
        | none => fs.read (store.path d.name) before := Archive.upToDate_after h before errands d
    refine ⟨fun x hx => ?_, fun hnone => ?_⟩
    · rw [hx] at hdoc
      have hload := load_of_text d.codec hdoc
      refine ⟨hload, fun hplain => hload.trans ?_⟩
      rw [reading, Document.ofText?_toText hplain]
    · rw [hnone] at hdoc
      exact load_congr d.codec hdoc

/-- A directory stands where snapshots would be written: only configurations are saved. -/
theorem replaced_whole_blockedSnapshot :
    let store : Store := ⟨["d"]⟩
    let before : FileTree := ⟨[], [["d"], ["d", "pool.json.tmp"]]⟩
    let web : PoolConfig := { name := "web", driver := ⟨"simulated", .null⟩ }
    let earlier : List Errand :=
      [.save .config { web with name := "old" }, .save .snapshot ⟨"web", ⟨[], ⟨0, 0⟩⟩⟩,
        .load .snapshot]
    let errands := earlier ++ [.save .config web]
    store.load FileTree.system Document.config.codec Document.config.name
        (Archive.after store FileTree.system before errands).files = .ok (some web) ∧
      store.load FileTree.system Document.snapshot.codec Document.snapshot.name
        (Archive.after store FileTree.system before errands).files = .ok none := by
  intro store before web earlier errands
  obtain ⟨_, hruns⟩ := replaced_whole (FileTree.careful store)
  have hplain : PoolConfig.Plain web :=
    { desiredSize := nofun
      margin := by decide
      fetch := ⟨⟨by decide, by decide⟩, by decide, by decide⟩
      updateInterval := by decide
      settings := ⟨trivial, trivial⟩ }
  have hlevels : (PoolConfig.codec.encode web).levels ≤ maxDepth := by decide +kernel
  have hsaved : (store.save FileTree.system Document.config.codec Document.config.name web
      (Archive.after store FileTree.system before earlier).files).1 = .ok () := by
    decide +kernel
  have hconfig : (Archive.after store FileTree.system before errands).last .config = some web := by
    rw [Archive.after_concat]
    exact Archive.last_perform_save hsaved
  have hsnapshot :
      (Archive.after store FileTree.system before errands).last .snapshot = none :=
    Option.isNone_iff_eq_none.1 (by decide +kernel)
  have hempty : store.load FileTree.system Document.snapshot.codec Document.snapshot.name before =
      .ok none := rfl
  exact ⟨((hruns errands before .config).1 web hconfig).2 ⟨hplain, hlevels⟩,
    ((hruns errands before .snapshot).2 hsnapshot).trans hempty⟩

/-- **Not every value is loaded as it was saved**, a fraction may come back as the next one; a path
inside a document leads nowhere before the document is there, and is refused after; and other names
may stand for the same document. -/
theorem save_imprecise :
    let store : Store := ⟨["d"]⟩
    let before := FileTree.atRoot ["d"]
    let x : Json := .number (.real ⟨false, 4141611966112769842⟩)
    let result := store.save FileTree.system Codec.json "pool.json" x before
    let loaded := store.load FileTree.system Codec.json "pool.json" result.2
    result.1 = .ok () ∧ Codec.json.toText x = "7.999999999999999e-32" ∧
      loaded.toOption.join.map Codec.json.toText = some "7.999999999999998e-32" ∧
      loaded ≠ .ok (some x) ∧
      store.load FileTree.system Codec.json "pool.json/x" before = .ok none ∧
      (∃ e, store.load FileTree.system Codec.json "pool.json/x" result.2 = .error e) ∧
      store.Careful FileTree.resolving ∧
      store.load FileTree.resolving Codec.json "pool.json" before = .ok none ∧
      ∀ name ∈ ["./pool.json", "../d/pool.json"],
        let saved := store.save FileTree.resolving Codec.json name .null before
        saved.1 = .ok () ∧
          store.load FileTree.resolving Codec.json "pool.json" saved.2 = .ok (some .null) := by
  intro store before x result loaded
  have htext : Codec.json.toText x = "7.999999999999999e-32" := by decide +kernel
  have hloaded : loaded.toOption.join.map Codec.json.toText = some "7.999999999999998e-32" := by
    decide +kernel
  have halias (name : String) (hname : name = "./pool.json" ∨ name = "../d/pool.json") :
      let saved := store.save FileTree.resolving Codec.json name .null before
      saved.1 = .ok () ∧
        store.load FileTree.resolving Codec.json "pool.json" saved.2 = .ok (some .null) := by
    rcases hname with rfl | rfl
    · exact ⟨rfl, rfl⟩
    · exact ⟨rfl, rfl⟩
  refine ⟨rfl, htext, hloaded, fun hsame => ?_, rfl, ⟨_, rfl⟩,
    FileTree.resolving_careful (by decide), rfl, fun name hname => halias name ?_⟩
  · rw [hsame] at hloaded
    have hother := htext.symm.trans (Option.some.inj hloaded)
    exact absurd hother (by decide)
  · simpa using hname

end Store

end PoolKeeper
