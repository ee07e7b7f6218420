import AvroTypes.Proofs.Conversion.Success
import AvroTypes.Proofs.FileSystem.Walking
import AvroTypes.Proofs.Schema.Grammar

/-!
# Loading a directory

The schema files of a directory are read one by one, and their tables are put in a row.  That is the
table of one list of schemas: those of all the files, in the order of the names that lead to the
files.  So it does not matter where the directory is and what else it holds.

A directory is only listed and a file only read by its path, and the system refuses a path that is
too long.  So a directory can hold schema files that all have tables of their own, and still not be
loaded.

* `schemasOfBytes` — the schemas of a file.
* `tableOf_schemas` — tables in a row are the table of one list.
* `IsSource`, `Loadable` — the schema files of a directory, and when they can be loaded.
* `exists_loadDirectory_iff` — **then, and only then, they are loaded.**
* `loadDirectory_eq_tableOf` — **a directory is loaded as one list of schemas.**
* `loadDirectory_longPath` — a directory that cannot be loaded.
-/

namespace AvroTypes.Conversion

open AvroTypes.Text (InByteOrder eq_of_inByteOrder)

/-! ## The schemas of files -/

/-- The schemas of a document: the elements of a list, or the document itself. -/
def schemasOf : Json.Value → List Json.Value
  | .array documents => documents
  | document => [document]

/-- The document that bytes spell. -/
def documentOf? (bytes : ByteArray) : Option Json.Value :=
  (String.fromUTF8? bytes).bind fun text => (Json.Value.ofText text).toOption

/-- **The schemas of a file**: none if it is no document. -/
def schemasOfBytes (bytes : ByteArray) : List Json.Value :=
  ((documentOf? bytes).map schemasOf).getD []

section

variable {options : Options}

/-- A file with a table spells a document. -/
lemma documentOf?_of_tableOfBytes {bytes : ByteArray} {table : List NamedType}
    (h : tableOfBytes options bytes = .ok table) :
    ∃ document, documentOf? bytes = some document ∧
      Schema.tableOf document options.defaultNamespace = .ok table := by
  obtain ⟨text, decoded, htext⟩ := bind_eq_ok_iff.mp h
  obtain ⟨document, read, hdocument⟩ := tableOfText_eq_ok_iff.mp htext
  refine ⟨document, ?_, hdocument⟩
  rw [decodeText] at decoded
  split at decoded
  · next found =>
      obtain rfl := Except.ok.inj decoded
      rw [documentOf?, found, Option.bind_some, read]
      rfl
  · cases decoded

/-- The table of a file is made of the tables of its schemas. -/
lemma exists_tables {bytes : ByteArray} {table : List NamedType}
    (h : tableOfBytes options bytes = .ok table) :
    ∃ tables, List.Forall₂
        (fun schema part => Schema.resolveDocument schema options.defaultNamespace = .ok part)
        (schemasOfBytes bytes) tables ∧
      table = tables.flatten := by
  obtain ⟨document, spelled, hdocument⟩ := documentOf?_of_tableOfBytes h
  rw [schemasOfBytes, spelled, Option.map_some, Option.getD_some]
  rcases (Schema.tableOf_eq_ok_iff.mp hdocument).2 with one | ⟨documents, tables, rfl, each, rfl⟩
  · obtain ⟨node, _, rfl, _⟩ := Schema.resolveDocument_eq_ok_iff.mp one
    exact ⟨[table], .cons one .nil, by simp⟩
  · exact ⟨tables, each, rfl⟩

/-- **Tables in a row are the table of one list of schemas**, by induction on the files. -/
theorem tableOf_schemas (valid : Schema.isNamespace options.defaultNamespace = true)
    {files : List TreeFile} {parts : List (List NamedType)}
    (h : List.Forall₂ (fun file part => tableOfBytes options file.bytes = .ok part) files parts) :
    Schema.tableOf (.array (files.flatMap fun file => schemasOfBytes file.bytes))
      options.defaultNamespace = .ok parts.flatten := by
  have all : ∃ tables, List.Forall₂
      (fun schema part => Schema.resolveDocument schema options.defaultNamespace = .ok part)
      (files.flatMap fun file => schemasOfBytes file.bytes) tables ∧
        parts.flatten = tables.flatten := by
    induction h with
    | nil => exact ⟨[], .nil, rfl⟩
    | cons first _ ih =>
        obtain ⟨tables, each, rfl⟩ := exists_tables first
        obtain ⟨others, hothers, rest⟩ := ih
        exact ⟨tables ++ others, List.rel_append each hothers, by simp [rest]⟩
  obtain ⟨tables, each, same⟩ := all
  exact Schema.tableOf_eq_ok_iff.mpr ⟨valid, .inr ⟨_, tables, rfl, each, same⟩⟩

end

/-! ## Loading -/

/-- **A schema file of a directory**: its path has the ending. -/
structure IsSource (options : Options) (directory : String) (entries : List (String × Entry))
    (file : TreeFile) : Prop where
  there : (Entry.directory entries).at? file.names = some (.file file.bytes)
  ending : endsIn options.inputExtension (pathBelow directory file.names) = true

/-- **A directory without links that can be loaded.**  Neither the path of a directory below it nor
that of a schema file is too long, and each schema file has a table of its own. -/
structure Loadable (options : Options) (fs : FileSystem) (directory : String)
    (entries : List (String × Entry)) : Prop where
  holds : Holds fs directory entries
  directories : DirectoriesFit directory entries
  sources : ∀ file, IsSource options directory entries file →
    pathFits (pathBelow directory file.names) = true ∧
      ∃ table, tableOfBytes options file.bytes = .ok table

section

variable {options : Options} {fs : FileSystem} {directory : String}
  {entries : List (String × Entry)}

lemma mem_matching_iff (ordered : (Entry.directory entries).Ordered) {file : TreeFile} :
    file ∈ matching options.inputExtension directory entries ↔
      IsSource options directory entries file := by
  rw [matching, List.mem_filter, Entry.mem_files_iff ordered]
  refine ⟨?_, fun source => ⟨source.there, source.ending⟩⟩
  rintro ⟨there, ending⟩
  exact ⟨there, ending⟩

lemma pairwise_matching {ending : String} (ordered : (Entry.directory entries).Ordered) :
    (matching ending directory entries).Pairwise
      fun file other => InByteOrder file.names other.names :=
  (Entry.pairwise_files _ ordered).filter _

/-- A file is read as it is. -/
lemma runOn_readSource (path : String) :
    runOn ((FileStore.readBytes path).adapt fun error =>
      ConversionError.inFile path (.io error)) fs =
        ((fs.readBytes path).mapError fun error => .inFile path (.io error), fs) := rfl

/-- A file that is there and has a table is loaded. -/
lemma runOn_loadFile {path : String} {location : List String} {bytes : ByteArray}
    {table : List NamedType} (there : fs.entry true path = .ok (location, .file bytes))
    (htable : tableOfBytes options bytes = .ok table) :
    runOn (loadFile options path) fs = (.ok table, fs) := by
  have content : fs.readBytes path = .ok bytes := by
    rw [FileSystem.readBytes, there]
    rfl
  have read := @runOn_readSource fs path
  rw [content] at read
  rw [loadFile, runOn_bind_of_ok read, runOn_liftExcept, htable]
  rfl

/-- **What is loaded**: the tables of the schema files in the order of the walk, in a row. -/
lemma runOn_loadDirectory (loadable : Loadable options fs directory entries) :
    ∃ parts, List.Forall₂ (fun file part => tableOfBytes options file.bytes = .ok part)
        (matching options.inputExtension directory entries) parts ∧
      runOn (loadDirectory options directory) fs = (.ok parts.flatten, fs) := by
  obtain ⟨holds, directories, sources⟩ := loadable
  have source {file : TreeFile}
      (hfile : file ∈ matching options.inputExtension directory entries) :=
    (mem_matching_iff holds.ordered).mp hfile
  obtain ⟨parts, each⟩ := Schema.exists_forall₂ fun file hfile => (sources file (source hfile)).2
  have found := holds.runOn_filesEndingIn directories options.inputExtension
  have listed : runOn ((filesEndingIn options.inputExtension directory).adapt
      (ConversionError.sourceUnavailable directory)) fs = (.ok
        ((matching options.inputExtension directory entries).map fun file =>
          pathBelow directory file.names), fs) := by
    rw [runOn_adapt, found]
    rfl
  have loaded : runOn (((matching options.inputExtension directory entries).map fun file =>
      pathBelow directory file.names).mapM (loadFile options)) fs = (.ok parts, fs) := by
    refine runOn_mapM (List.forall₂_map_left_iff.mpr ?_)
    refine ((List.forall₂_and_left _ _).mpr ⟨fun _ => source, each⟩).imp fun file table h => ?_
    obtain ⟨isSource, htable⟩ := h
    obtain ⟨location, there⟩ :=
      holds.entry_file directories isSource.there (sources file isSource).1
    exact runOn_loadFile there htable
  refine ⟨parts, each, ?_⟩
  rw [loadDirectory, runOn_bind_of_ok listed, runOn_bind_of_ok loaded]
  rfl

/-- What is read is at the end of the path. -/
lemma entry_of_readBytes {path : String} {bytes : ByteArray} (h : fs.readBytes path = .ok bytes) :
    ∃ location, fs.entry true path = .ok (location, .file bytes) := by
  obtain ⟨⟨location, entry⟩, there, h⟩ := bind_eq_ok_iff.mp h
  cases entry with
  | file bytes' =>
      obtain rfl := Except.ok.inj h
      exact ⟨location, there⟩
  | link target => cases h
  | directory inside => cases h

/-- A file that has been loaded was there, and has a table. -/
lemma exists_of_runOn_loadFile {path : String} {table : List NamedType}
    (h : runOn (loadFile options path) fs = (.ok table, fs)) :
    ∃ location bytes, fs.entry true path = .ok (location, .file bytes) ∧
      tableOfBytes options bytes = .ok table := by
  rw [loadFile] at h
  obtain ⟨bytes, read, h⟩ := exists_of_runOn_bind h ((OnlyLooks.look _).adapt _)
  rw [runOn_readSource] at read
  obtain ⟨location, there⟩ := entry_of_readBytes (mapError_eq_ok_iff.mp (Prod.mk.inj read).1)
  rw [runOn_liftExcept] at h
  exact ⟨location, bytes, there, mapError_eq_ok_iff.mp (Prod.mk.inj h).1⟩

/-- **A directory without links is loaded exactly if nothing is too long and each schema file has a
table of its own.** -/
theorem exists_loadDirectory_iff (holds : Holds fs directory entries) :
    (∃ table, runOn (loadDirectory options directory) fs = (.ok table, fs)) ↔
      Loadable options fs directory entries := by
  refine ⟨fun ⟨table, h⟩ => ?_, fun loadable => ?_⟩
  · rw [loadDirectory] at h
    obtain ⟨paths, listed, h⟩ :=
      exists_of_runOn_bind h ((onlyLooks_filesEndingIn _ _).adapt _)
    have found : runOn (filesEndingIn options.inputExtension directory) fs = (.ok paths, fs) := by
      rw [runOn_adapt] at listed
      exact Prod.ext (mapError_eq_ok_iff.mp (Prod.mk.inj listed).1) (Prod.mk.inj listed).2
    have directories := holds.directoriesFit found
    have walked := found.symm.trans (holds.runOn_filesEndingIn directories _)
    obtain rfl := Except.ok.inj (Prod.mk.inj walked).1
    have looks (path : String) :
        OnlyLooks (loadFile options path : ExceptT ConversionError (StateM FileSystem) _)
          fun _ => True :=
      ((OnlyLooks.look _).adapt _).bind fun _ _ => .ofExcept fun _ _ => trivial
    obtain ⟨tables, loaded, -⟩ := exists_of_runOn_bind h (.mapM looks)
    rw [List.mapM_map] at loaded
    refine ⟨holds, directories, fun file source => ?_⟩
    obtain ⟨table, hfile⟩ := exists_of_runOn_mapM loaded (fun _ => looks _)
      ((mem_matching_iff holds.ordered).mpr source)
    obtain ⟨location, bytes, there, htable⟩ := exists_of_runOn_loadFile hfile
    have short := pathFits_of_entry there
    obtain ⟨_, there'⟩ := holds.entry_file directories source.there short
    obtain rfl : file.bytes = bytes := by
      have same := (Prod.mk.inj (Except.ok.inj (there'.symm.trans there))).2
      exact Entry.file.inj same
    exact ⟨short, table, htable⟩
  · obtain ⟨parts, -, loaded⟩ := runOn_loadDirectory loadable
    exact ⟨_, loaded⟩

end

/-- **A directory is loaded as one list of schemas.**  The list is made of the schemas of all schema
files, which are taken in the order of the bytes of the names that lead to them.  So two directories
with the same schema files are loaded alike, wherever they are and whatever else they hold. -/
theorem loadDirectory_eq_tableOf {options : Options} {fs : FileSystem} {directory : String}
    {entries : List (String × Entry)}
    (valid : Schema.isNamespace options.defaultNamespace = true)
    (loadable : Loadable options fs directory entries) :
    (∃ (files : List TreeFile) (table : List NamedType),
      (∀ file, file ∈ files ↔ IsSource options directory entries file) ∧
      files.Pairwise (fun file other => InByteOrder file.names other.names) ∧
      Schema.tableOf (.array (files.flatMap fun file => schemasOfBytes file.bytes))
        options.defaultNamespace = .ok table ∧
      runOn (loadDirectory options directory) fs = (.ok table, fs)) ∧
    ∀ {fs' : FileSystem} {directory' : String} {entries' : List (String × Entry)},
      Loadable options fs' directory' entries' →
      (∀ file, IsSource options directory' entries' file ↔
        IsSource options directory entries file) →
      (runOn (loadDirectory options directory') fs').1 =
        (runOn (loadDirectory options directory) fs).1 := by
  obtain ⟨parts, each, loaded⟩ := runOn_loadDirectory loadable
  have ordered := loadable.holds.ordered
  have table := tableOf_schemas valid each
  refine ⟨⟨_, _, fun _ => mem_matching_iff ordered, pairwise_matching ordered, table, loaded⟩, ?_⟩
  intro fs' directory' entries' loadable' alike
  obtain ⟨parts', each', loaded'⟩ := runOn_loadDirectory loadable'
  have ordered' := loadable'.holds.ordered
  have same : matching options.inputExtension directory' entries' =
      matching options.inputExtension directory entries :=
    eq_of_inByteOrder (pairwise_matching ordered') (pairwise_matching ordered) fun file => by
      rw [mem_matching_iff ordered', mem_matching_iff ordered, alike]
  have table' := tableOf_schemas valid each'
  rw [same, table] at table'
  rw [loaded, loaded', Except.ok.inj table']

/-! ## Two directories with the same schema files -/

/-- One schema. -/
def oneSchema : ByteArray := "\x7b\"name\":\"E\",\"type\":\"int\"\x7d".toUTF8

/-- A list of two. -/
def twoSchemas : ByteArray :=
  "[\x7b\"name\":\"F\",\"type\":\"int\"\x7d,\x7b\"name\":\"G\",\"type\":\"int\"\x7d]".toUTF8

/-- Two schema files, one of them in a directory whose name is the start of the other's, and a note
behind them. -/
def annotated (name : String) (note : ByteArray) : List (String × Entry) :=
  [("a", .directory [("b.avro", .file twoSchemas)]), ("a.avro", .file oneSchema),
    (name, .file note)]

/-- Two such directories with different notes. -/
def twinDisk : FileSystem :=
  { root := .directory
      [("s", .directory (annotated "b" "?".toUTF8)), ("t", .directory (annotated "c" "!".toUTF8))]
    workingDirectory := [] }

/-- The schema of a number by another name. -/
def numberNode (name : String) : Json.Value :=
  .object [("name", .string name), ("type", .string "int")]

/-- Its entry. -/
def numberNamed (name : String) : NamedType :=
  { name, space := "", alternatives := [.plain .number], schema := numberNode name }

lemma table_oneSchema : tableOfBytes {} oneSchema = .ok [numberNamed "E"] := by
  rw [oneSchema, tableOfBytes_toUTF8]
  exact tableOfText_eq_ok_iff.mpr ⟨numberNode "E", by cbv, by rfl⟩

lemma table_twoSchemas : tableOfBytes {} twoSchemas = .ok [numberNamed "F", numberNamed "G"] := by
  rw [twoSchemas, tableOfBytes_toUTF8]
  exact tableOfText_eq_ok_iff.mpr ⟨.array [numberNode "F", numberNode "G"], by cbv, by rfl⟩

section

variable {name : String} {note : ByteArray}

lemma ordered_annotated (last : "a.avro" < name) :
    (Entry.directory (annotated name note)).Ordered := by
  have first : "a" < "a.avro" := by decide
  refine Entry.ordered_directory ?_ ?_
  · refine .cons ?_ (.cons (List.forall_mem_singleton.mpr last) (List.pairwise_singleton _ _))
    exact List.forall_mem_cons.mpr
      ⟨first, List.forall_mem_singleton.mpr (String.lt_trans first last)⟩
  · have inner : (Entry.directory [("b.avro", .file twoSchemas)]).Ordered :=
      Entry.ordered_directory (List.pairwise_singleton _ _) (by simpa using Entry.ordered_file _)
    simpa [annotated] using ⟨inner, Entry.ordered_file _, Entry.ordered_file _⟩

/-- What holds at each of its places holds everywhere in the directory. -/
lemma forall_annotated {property : List String → Entry → Prop}
    (here : property [] (.directory (annotated name note)))
    (inner : property ["a"] (.directory [("b.avro", .file twoSchemas)]))
    (two : property ["a", "b.avro"] (.file twoSchemas))
    (one : property ["a.avro"] (.file oneSchema))
    (other : property [name] (.file note)) :
    ∀ names entry, (Entry.directory (annotated name note)).at? names = some entry →
      property names entry := by
  refine forall_at?_directory here (List.forall_mem_cons.mpr ⟨?_, List.forall_mem_cons.mpr
    ⟨forall_at?_file one, List.forall_mem_singleton.mpr (forall_at?_file other)⟩⟩)
  exact forall_at?_directory inner (List.forall_mem_singleton.mpr (forall_at?_file two))

lemma loadable_annotated {directory : String}
    (here : ∃ location,
      twinDisk.entry true directory = .ok (location, .directory (annotated name note)))
    (last : "a.avro" < name) (nameOnly : NameOnly name)
    (fits : ∀ names ∈ [[], ["a"], ["a", "b.avro"], ["a.avro"]],
      pathFits (pathBelow directory names) = true)
    (noSchema : endsIn ".avro" (pathBelow directory [name]) = false) :
    Loadable {} twinDisk directory (annotated name note) := by
  have named : ∀ names entry, (Entry.directory (annotated name note)).at? names = some entry →
      ∀ name ∈ names, NameOnly name :=
    forall_annotated (by simp) (by decide) (by decide) (by decide) (by simpa using nameOnly)
  have linkless : ∀ names entry, (Entry.directory (annotated name note)).at? names = some entry →
      ∀ target, entry ≠ .link target := forall_annotated nofun nofun nofun nofun nofun
  have directories : ∀ names entry,
      (Entry.directory (annotated name note)).at? names = some entry →
        entry.kind = .directory → pathFits (pathBelow directory names) = true :=
    forall_annotated (fun _ => fits _ (by simp)) (fun _ => fits _ (by simp)) nofun nofun nofun
  have sources : ∀ names entry, (Entry.directory (annotated name note)).at? names = some entry →
      ∀ bytes, entry = .file bytes → endsIn ".avro" (pathBelow directory names) = true →
        pathFits (pathBelow directory names) = true ∧
          ∃ table, tableOfBytes {} bytes = .ok table := by
    refine forall_annotated nofun nofun ?_ ?_ ?_
    · rintro _ ⟨⟩ -
      exact ⟨fits _ (by simp), _, table_twoSchemas⟩
    · rintro _ ⟨⟩ -
      exact ⟨fits _ (by simp), _, table_oneSchema⟩
    · intro _ _ ending
      rw [noSchema] at ending
      cases ending
  exact ⟨⟨here, ordered_annotated last, named, fun names target found => linkless _ _ found _ rfl⟩,
    fun names inside found => directories _ _ found rfl,
    fun file source => sources _ _ source.there _ rfl source.ending⟩

end

/-- Both directories are loaded to the same table: the one schema comes last, although its path does
not. -/
theorem loadDirectory_eq_tableOf_twins :
    Schema.isNamespace ({} : Options).defaultNamespace = true ∧
    Loadable {} twinDisk "s" (annotated "b" "?".toUTF8) ∧
    Loadable {} twinDisk "t" (annotated "c" "!".toUTF8) ∧
    runOn (loadDirectory {} "s") twinDisk =
      (.ok [numberNamed "F", numberNamed "G", numberNamed "E"], twinDisk) ∧
    (runOn (loadDirectory {} "t") twinDisk).1 =
      .ok [numberNamed "F", numberNamed "G", numberNamed "E"] := by
  have first : Loadable {} twinDisk "s" (annotated "b" "?".toUTF8) :=
    loadable_annotated ⟨["s"], rfl⟩ (by decide) (by decide) (by decide +kernel) (by decide +kernel)
  have second : Loadable {} twinDisk "t" (annotated "c" "!".toUTF8) :=
    loadable_annotated ⟨["t"], rfl⟩ (by decide) (by decide) (by decide +kernel) (by decide +kernel)
  have found : matching ".avro" "s" (annotated "b" "?".toUTF8) =
      [⟨["a", "b.avro"], twoSchemas⟩, ⟨["a.avro"], oneSchema⟩] := rfl
  have found' : matching ".avro" "t" (annotated "c" "!".toUTF8) =
      [⟨["a", "b.avro"], twoSchemas⟩, ⟨["a.avro"], oneSchema⟩] := rfl
  obtain ⟨⟨files, table, hfiles, sorted, htable, loaded⟩, alike⟩ :=
    loadDirectory_eq_tableOf rfl first
  have same : files = [⟨["a", "b.avro"], twoSchemas⟩, ⟨["a.avro"], oneSchema⟩] := by
    rw [← found]
    exact eq_of_inByteOrder sorted (pairwise_matching first.holds.ordered) fun file =>
      (hfiles file).trans (mem_matching_iff first.holds.ordered).symm
  have tables : List.Forall₂ (fun file part => tableOfBytes {} file.bytes = .ok part) files
      [[numberNamed "F", numberNamed "G"], [numberNamed "E"]] := by
    rw [same]
    exact .cons table_twoSchemas (.cons table_oneSchema .nil)
  have known := tableOf_schemas rfl tables
  have same' : table = [numberNamed "F", numberNamed "G", numberNamed "E"] :=
    Except.ok.inj (htable.symm.trans known)
  rw [same'] at loaded
  have again := alike second fun file => by
    rw [← mem_matching_iff second.holds.ordered, ← mem_matching_iff first.holds.ordered]
    exact iff_of_eq (congrArg (file ∈ ·) (found'.trans found.symm))
  rw [loaded] at again
  exact ⟨rfl, first, second, loaded, again⟩

/-! ## A directory that is not loaded -/

/-- A path that stays where it is some times before it goes down. -/
def dotted (count : Nat) : String := Nat.repeat ("./" ++ ·) count "in"

section

variable {count : Nat}

lemma dotted_succ : dotted (count + 1) = "." ++ "/" ++ dotted count := rfl

lemma utf8ByteSize_dotted : (dotted count).utf8ByteSize = 2 * count + 2 := by
  induction count with
  | zero => rfl
  | succ count ih =>
      rw [dotted_succ, String.utf8ByteSize_append, ih, show ("." ++ "/").utf8ByteSize = 2 by rfl]
      omega

lemma dotted_ne_empty : dotted count ≠ "" := by
  intro empty
  have size := @utf8ByteSize_dotted count
  rw [empty] at size
  cases size

lemma nul_not_mem_dotted : '\x00' ∉ (dotted count).toList := by
  induction count with
  | zero => decide
  | succ count ih => simpa [dotted_succ] using ih

lemma partsOf_dotted : partsOf (dotted count) = List.replicate count .stay ++ [.down "in"] := by
  induction count with
  | zero => decide
  | succ count ih =>
      have last : (dotted (count + 1)).toList.getLast? = (dotted count).toList.getLast? := by
        have more : (dotted count).toList ≠ [] := fun hnil =>
          dotted_ne_empty (String.toList_eq_nil_iff.mp hnil)
        rw [dotted_succ, String.toList_append, List.getLast?_append_of_ne_nil _ more]
      rw [partsOf, last, dotted_succ, namedParts_append, List.append_assoc, ← partsOf, ih]
      rfl

end

/-- A schema file in a directory. -/
def nested : List (String × Entry) := [("deep", .directory [("a.avro", .file oneSchema)])]

/-- The directory, inside another. -/
def nestedDisk : FileSystem :=
  { root := .directory [("in", .directory nested)], workingDirectory := [] }

/-- What holds at each of its places holds everywhere in the directory. -/
lemma forall_nested {property : List String → Entry → Prop}
    (here : property [] (.directory nested))
    (inner : property ["deep"] (.directory [("a.avro", .file oneSchema)]))
    (file : property ["deep", "a.avro"] (.file oneSchema)) :
    ∀ names entry, (Entry.directory nested).at? names = some entry → property names entry := by
  refine forall_at?_directory here (List.forall_mem_singleton.mpr ?_)
  exact forall_at?_directory inner (List.forall_mem_singleton.mpr (forall_at?_file file))

lemma holds_nested {count : Nat} (fits : (dotted count).utf8ByteSize ≤ pathLimit) :
    Holds nestedDisk (dotted count) nested where
  here := by
    have start : nestedDisk.start (dotted count) = [] := by
      rw [FileSystem.start]
      split_ifs <;> rfl
    have reaches (parts : Nat) : Reaches nestedDisk.root true linkLimit []
        (List.replicate parts .stay ++ [.down "in"]) (.found ["in"] (.directory nested)) := by
      induction parts with
      | zero => exact .down (by decide) rfl (.here rfl)
      | succ parts ih => exact .stay ih
    refine ⟨["in"], FileSystem.entry_eq_ok_iff.mpr (FileSystem.follow_eq_ok_iff.mpr
      ⟨⟨nul_not_mem_dotted, dotted_ne_empty, fits⟩, ?_⟩)⟩
    rw [start, partsOf_dotted]
    exact reaches count
  ordered := by
    refine Entry.ordered_directory (List.pairwise_singleton _ _) ?_
    have inner : (Entry.directory [("a.avro", .file oneSchema)]).Ordered :=
      Entry.ordered_directory (List.pairwise_singleton _ _) (by simpa using Entry.ordered_file _)
    simpa [nested] using inner
  named := forall_nested (by simp) (by decide) (by decide)
  linkless := by
    have all : ∀ names entry, (Entry.directory nested).at? names = some entry →
        ∀ target, entry ≠ .link target := forall_nested (by simp) (by simp) (by simp)
    exact fun names target found => all _ _ found _ rfl

lemma isSource_nested {directory : String} :
    IsSource {} directory nested ⟨["deep", "a.avro"], oneSchema⟩ := by
  refine ⟨rfl, ?_⟩
  have last : pathBelow directory ["deep", "a.avro"] =
      joinPath (pathBelow directory ["deep"]) "a.avro" := rfl
  have suffix : ".avro".toList <:+ "a.avro".toList := by decide
  rw [last, endsIn, List.isSuffixOf_iff_suffix]
  rcases joinPath_eq_or (pathBelow directory ["deep"]) "a.avro" with same | same
  · rw [same, String.toList_append]
    exact suffix.trans (List.suffix_append _ _)
  · rw [same, String.toList_append]
    exact suffix.trans (List.suffix_append _ _)

/-- If one name more is too long, the directory inside stops the walk. -/
lemma runOn_loadDirectory_nested (options : Options) {count : Nat}
    (fits : (dotted count).utf8ByteSize ≤ pathLimit)
    (long : pathLimit < (dotted count).utf8ByteSize + 4) :
    runOn (loadDirectory options (dotted count)) nestedDisk =
      (.error (.sourceUnavailable (dotted count)
        (.failed (joinPath (dotted count) "deep") .nameTooLong)), nestedDisk) := by
  have holds := holds_nested fits
  obtain ⟨location, here⟩ := holds.here
  obtain ⟨depth, named, deep, kind, whole⟩ := holds.runOn_filesBelow
  obtain ⟨depth, rfl⟩ := Nat.exists_eq_succ_of_ne_zero (Nat.ne_zero_of_lt deep)
  have nowhere : nestedDisk.entry true (joinPath (dotted count) "deep") = .error .nameTooLong := by
    have size : ("deep" : String).utf8ByteSize = 4 := rfl
    rcases joinPath_eq_or (dotted count) "deep" with same | same
    · rw [same]
      exact entry_of_long (by simpa using nul_not_mem_dotted)
        (by rw [String.utf8ByteSize_append]; omega)
    · rw [same]
      exact entry_of_long (by simpa using nul_not_mem_dotted)
        (by rw [String.utf8ByteSize_append, String.utf8ByteSize_append]; omega)
  have stopped : runOn (filesBelow (dotted count)) nestedDisk =
      (.error (.failed (joinPath (dotted count) "deep") .nameTooLong), nestedDisk) := by
    have inOrder : InOrder nested := List.pairwise_singleton _ _
    rw [whole, runOn_filesFrom_directory here inOrder (kind.imp_right fun link => ⟨link, rfl⟩)]
    refine runOn_bind_of_error ?_
    rw [nested, List.mapM_cons]
    exact runOn_bind_of_error (runOn_filesFrom_of_error nowhere)
  have listed : runOn ((filesEndingIn options.inputExtension (dotted count)).adapt
      (ConversionError.sourceUnavailable (dotted count))) nestedDisk =
        (.error (.sourceUnavailable (dotted count)
          (.failed (joinPath (dotted count) "deep") .nameTooLong)), nestedDisk) := by
    rw [runOn_adapt, filesEndingIn, runOn_bind_of_error stopped]
    rfl
  rw [loadDirectory, runOn_bind_of_error listed]

/-- **A directory that is not loaded**, though its only schema file has a table: the path of the
directory just fits, and that of the directory inside does not. -/
theorem loadDirectory_longPath :
    Schema.isNamespace ({} : Options).defaultNamespace = true ∧
    Holds nestedDisk (dotted 2046) nested ∧
    (∀ file, IsSource {} (dotted 2046) nested file ↔ file = ⟨["deep", "a.avro"], oneSchema⟩) ∧
    tableOfBytes {} oneSchema = .ok [numberNamed "E"] ∧
    Schema.tableOf (.array (schemasOfBytes oneSchema)) ({} : Options).defaultNamespace =
      .ok [numberNamed "E"] ∧
    runOn (loadDirectory {} (dotted 2046)) nestedDisk =
      (.error (.sourceUnavailable (dotted 2046)
        (.failed (joinPath (dotted 2046) "deep") .nameTooLong)), nestedDisk) := by
  have fits : (dotted 2046).utf8ByteSize ≤ pathLimit := by
    rw [utf8ByteSize_dotted]
    decide
  have long : pathLimit < (dotted 2046).utf8ByteSize + 4 := by
    rw [utf8ByteSize_dotted]
    decide
  have only : ∀ names entry, (Entry.directory nested).at? names = some entry →
      ∀ bytes, entry = .file bytes →
        (⟨names, bytes⟩ : TreeFile) = ⟨["deep", "a.avro"], oneSchema⟩ := by
    refine forall_nested (by simp) (by simp) ?_
    rintro _ ⟨⟩
    rfl
  have each : List.Forall₂ (fun (file : TreeFile) part => tableOfBytes {} file.bytes = .ok part)
      [⟨["deep", "a.avro"], oneSchema⟩] [[numberNamed "E"]] := .cons table_oneSchema .nil
  have table := tableOf_schemas rfl each
  rw [List.flatMap_singleton] at table
  refine ⟨rfl, holds_nested fits, fun file => ⟨fun source => only _ _ source.there _ rfl, ?_⟩,
    table_oneSchema, table, runOn_loadDirectory_nested {} fits long⟩
  rintro rfl
  exact isSource_nested

end AvroTypes.Conversion
