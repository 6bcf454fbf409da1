import SqlClient.Migration.Directory
import SqlClient.Proofs.Lists
import SqlClient.Proofs.Migration.Plan
import SqlClient.Proofs.Text.Digits
/-!
# Migrations — the scripts of a directory

Which entries of a directory are scripts, and what is made of a whole listing. `Names` is the grammar of
their file names, which splits a file name in one way only. An entry that has such a name is either a
script (`IsScript`) or spoils the directory (`Spoils`), and the others are passed over. A listing `Reads`
as the scripts of its entries; `scripts_of_directory` says that this is what a directory comes to, sorted
by id, unless an entry spoils it, and that the order of the listing has no say in it.
-/

namespace SqlClient

namespace MigrationScript

variable {digits digits' name name' fileName : List Char} {id : Int64} {content : EntryContent}
  {entry : DirectoryEntry} {script script' : MigrationScript} {listing listing' : List DirectoryEntry}
  {scripts scripts' : List MigrationScript}

/-! ## File names -/

/-- A file name is that of a script: digits of any writing system, an underscore, a name without dots,
and the ending. -/
structure Names (digits name fileName : List Char) : Prop where
  parts : fileName = digits ++ '_' :: (name ++ fileEnding)
  numbered : digits ≠ []
  digits : ∀ c ∈ digits, Unicode.isDecimalDigit c = true
  named : name ≠ []
  undotted : '.' ∉ name

/-- **A file name comes apart as its grammar says.** -/
theorem splitFileName?_eq_some_iff :
    splitFileName? fileName = some (digits, name) ↔ Names digits name fileName := by
  unfold splitFileName?
  constructor
  · intro h
    split at h
    case h_1 rest hrest =>
      dsimp only at h
      split at h
      case isTrue hsplit =>
        obtain ⟨hdigits, hname, hend⟩ := hsplit
        obtain ⟨rfl, rfl⟩ := Prod.mk.inj (Option.some.inj h)
        refine ⟨?_, hdigits, List.all_eq_true.1 List.all_takeWhile, hname, fun hdot => ?_⟩
        · rw [← hend, List.takeWhile_append_dropWhile, ← hrest, List.takeWhile_append_dropWhile]
        · have hplain := List.all_eq_true.1 List.all_takeWhile _ hdot
          exact bne_iff_ne.1 hplain rfl
      case isFalse => cases h
    case h_2 => cases h
  · rintro ⟨rfl, hdigits, hall, hname, hdot⟩
    -- the digits end at the underscore, and the name at the dot
    have hunderscore : Unicode.isDecimalDigit '_' = false := by decide
    have hplain : ∀ c ∈ name, (c != '.') = true := fun c hc => bne_iff_ne.2 fun h => hdot (h ▸ hc)
    rw [List.takeWhile_append_of_pos hall, List.dropWhile_append_of_pos hall,
      List.takeWhile_cons_of_neg (by simp [hunderscore]),
      List.dropWhile_cons_of_neg (by simp [hunderscore]), List.append_nil]
    simp [List.takeWhile_append_of_pos hplain, List.dropWhile_append_of_pos hplain, fileEnding, hdigits,
      hname]

/-- **A file name comes apart in one way only.** -/
theorem Names.unique (h : Names digits name fileName) (h' : Names digits' name' fileName) :
    digits = digits' ∧ name = name' := by
  have hsplit := splitFileName?_eq_some_iff.2 h
  rw [splitFileName?_eq_some_iff.2 h'] at hsplit
  simpa using hsplit.symm

/-- No sign stands before the digits. -/
theorem Names.unsigned (h : Names digits name fileName) : ∀ c ∈ digits.head?, c ≠ '+' ∧ c ≠ '-' := by
  intro c hc
  have hdigit := h.digits c (List.mem_of_mem_head? hc)
  have hsigns : Unicode.isDecimalDigit '+' = false ∧ Unicode.isDecimalDigit '-' = false := by decide
  constructor
  · rintro rfl
    rw [hsigns.1] at hdigit
    cases hdigit
  · rintro rfl
    rw [hsigns.2] at hdigit
    cases hdigit

/-! ## Entries -/

/-- An entry has the file name of a script. Bytes that are no text name nothing. -/
def HasName (entry : DirectoryEntry) (digits name : List Char) : Prop :=
  ∃ fileName : String, entry.name = encodeText fileName ∧ Names digits name fileName.toList

/-- An id is the decimal value of digits. Those of other writing systems than ASCII have none. -/
def Spells (digits : List Char) (id : Int64) : Prop :=
  (∀ c ∈ digits, c.isDigit = true) ∧ (Nat.ofDigitChars 10 digits 0 : Int) = id.toInt

/-- An entry is a script: its file name has the id and the name, and its content is the text. -/
def IsScript (entry : DirectoryEntry) (script : MigrationScript) : Prop :=
  ∃ digits, HasName entry digits script.name.toList ∧ Spells digits script.id ∧
    entry.content = .file (encodeText script.sql)

/-- An entry spoils its directory: it is named as a script, but the digits are no id or the content
cannot be read as text. -/
def Spoils (entry : DirectoryEntry) : Prop :=
  ∃ digits name, HasName entry digits name ∧
    ((∀ id, ¬ Spells digits id) ∨ ∀ sql, entry.content ≠ .file (encodeText sql))

theorem HasName.unique (h : HasName entry digits name) (h' : HasName entry digits' name') :
    digits = digits' ∧ name = name' := by
  obtain ⟨fileName, hentry, hnames⟩ := h
  obtain ⟨fileName', hentry', hnames'⟩ := h'
  obtain rfl := encodeText_injective (hentry.symm.trans hentry')
  exact hnames.unique hnames'

theorem IsScript.unique (h : IsScript entry script) (h' : IsScript entry script') :
    script = script' := by
  obtain ⟨digits, hname, hspells, hcontent⟩ := h
  obtain ⟨digits', hname', hspells', hcontent'⟩ := h'
  obtain ⟨rfl, hnames⟩ := hname.unique hname'
  have hid : script.id = script'.id := Int64.toInt_inj.1 (hspells.2.symm.trans hspells'.2)
  have hsql : script.sql = script'.sql := by
    rw [hcontent, EntryContent.file.injEq] at hcontent'
    exact encodeText_injective hcontent'
  obtain ⟨id, name, sql⟩ := script
  obtain ⟨id', name', sql'⟩ := script'
  rw [MigrationScript.mk.injEq]
  exact ⟨hid, String.toList_inj.1 hnames, hsql⟩

theorem IsScript.not_spoils (h : IsScript entry script) : ¬ Spoils entry := by
  rintro ⟨digits', name', hname', hspoilt⟩
  obtain ⟨digits, hname, hspells, hcontent⟩ := h
  obtain ⟨rfl, -⟩ := hname.unique hname'
  rcases hspoilt with hno | hno
  · exact hno _ hspells
  · exact hno _ hcontent

/-! ## Reading an entry -/

theorem readId_eq_ok_iff (h : Names digits name fileName) :
    readId digits = .ok id ↔ Spells digits id := by
  rw [Spells, ← readInt64_eq_ok_iff h.numbered h.unsigned, readId]
  cases readInt64 (String.ofList digits) <;> simp

theorem readContent_eq_ok_iff {sql : String} :
    readContent content = .ok sql ↔ content = .file (encodeText sql) := by
  cases content with
  | directory => simp [readContent]
  | unreadable => simp [readContent]
  | file bytes =>
    rw [EntryContent.file.injEq, ← decodeText?_eq_some_iff, readContent]
    cases decodeText? bytes <;> simp

/-- Other entries are passed over. -/
theorem ofEntry_unnamed (h : ∀ digits name, ¬ HasName entry digits name) : ofEntry entry = .ok none := by
  unfold ofEntry
  split
  · rfl
  · rename_i fileName hdecode
    split
    · rfl
    · rename_i digits name hsplit
      exact absurd ⟨fileName, decodeText?_eq_some_iff.1 hdecode, splitFileName?_eq_some_iff.1 hsplit⟩
        (h digits name)

/-- **An entry that is named as a script is one, or the directory is refused for it.** -/
theorem ofEntry_named (h : HasName entry digits name) :
    (∃ script, IsScript entry script ∧ ofEntry entry = .ok (some script)) ∨
      (Spoils entry ∧ ∃ message, ofEntry entry = .error (.migration .importError message)) := by
  have hname := h
  obtain ⟨fileName, hentry, hnames⟩ := h
  unfold ofEntry
  rw [hentry, decodeText?_encodeText]
  simp only [splitFileName?_eq_some_iff.2 hnames]
  cases hid : readId digits with
  | error =>
    refine .inr ⟨⟨digits, name, hname, .inl fun id hspells => ?_⟩, _, rfl⟩
    rw [(readId_eq_ok_iff hnames).2 hspells] at hid
    cases hid
  | ok id =>
    cases hcontent : readContent entry.content with
    | error =>
      refine .inr ⟨⟨digits, name, hname, .inr fun sql hfile => ?_⟩, _, rfl⟩
      rw [readContent_eq_ok_iff.2 hfile] at hcontent
      cases hcontent
    | ok sql =>
      refine .inl ⟨⟨id, String.ofList name, sql⟩, ⟨digits, ?_, ?_, ?_⟩, rfl⟩
      · rwa [String.toList_ofList]
      · exact (readId_eq_ok_iff hnames).1 hid
      · exact readContent_eq_ok_iff.1 hcontent

/-- Digits of another writing system name a script, but are no id. -/
example : ofEntry ⟨encodeText "٣_pets.sql", .file []⟩ =
    .error (.migration .importError "٣_pets.sql: invalid digit found in string") := rfl

/-- An entry is a script, spoils the directory, or is passed over. -/
theorem ofEntry_cases (entry : DirectoryEntry) :
    ((∀ digits name, ¬ HasName entry digits name) ∧ ofEntry entry = .ok none) ∨
      (∃ script, IsScript entry script ∧ ofEntry entry = .ok (some script)) ∨
      (Spoils entry ∧ ∃ message, ofEntry entry = .error (.migration .importError message)) := by
  by_cases h : ∃ digits name, HasName entry digits name
  · obtain ⟨digits, name, hname⟩ := h
    exact .inr (ofEntry_named hname)
  · have hnone : ∀ digits name, ¬ HasName entry digits name := fun digits name hname => h ⟨_, _, hname⟩
    exact .inl ⟨hnone, ofEntry_unnamed hnone⟩

/-- An entry that spoils the directory is the only reason to refuse it. -/
theorem ofEntry_isOk_iff : (∃ read, ofEntry entry = .ok read) ↔ ¬ Spoils entry := by
  rcases ofEntry_cases entry with ⟨hnone, hread⟩ | ⟨script, hscript, hread⟩ | ⟨hspoils, message, hread⟩
  · refine iff_of_true ⟨_, hread⟩ ?_
    rintro ⟨digits, name, hname, -⟩
    exact hnone digits name hname
  · exact iff_of_true ⟨_, hread⟩ hscript.not_spoils
  · refine iff_of_false ?_ (not_not_intro hspoils)
    rintro ⟨read, hok⟩
    rw [hread] at hok
    cases hok

/-! ## Listings -/

/-- **A listing reads as scripts**: one for each entry that is named as a script, in the order of the
listing. -/
inductive Reads : List DirectoryEntry → List MigrationScript → Prop
  | none : Reads [] []
  | passed {entry : DirectoryEntry} {listing : List DirectoryEntry} {scripts : List MigrationScript} :
      (∀ digits name, ¬ HasName entry digits name) → Reads listing scripts →
      Reads (entry :: listing) scripts
  | taken {entry : DirectoryEntry} {script : MigrationScript} {listing : List DirectoryEntry}
      {scripts : List MigrationScript} :
      IsScript entry script → Reads listing scripts → Reads (entry :: listing) (script :: scripts)

theorem IsScript.hasName (h : IsScript entry script) : ∃ digits name, HasName entry digits name := by
  obtain ⟨digits, hname, -⟩ := h
  exact ⟨digits, _, hname⟩

/-- A listing reads in one way only. -/
theorem Reads.unique (h : Reads listing scripts) (h' : Reads listing scripts') : scripts = scripts' := by
  induction h generalizing scripts' with
  | none =>
    cases h'
    rfl
  | passed hnone _ ih =>
    cases h' with
    | passed _ hrest => exact ih hrest
    | taken hscript =>
      obtain ⟨digits, name, hname⟩ := hscript.hasName
      exact absurd hname (hnone digits name)
  | taken hscript _ ih =>
    cases h' with
    | passed hnone =>
      obtain ⟨digits, name, hname⟩ := hscript.hasName
      exact absurd hname (hnone digits name)
    | taken hscript' hrest => rw [hscript.unique hscript', ih hrest]

/-- **In another order a listing reads as the same scripts, in another order**, by induction on the
exchanges of neighbours that lead from the one order to the other. -/
theorem Reads.perm (h : Reads listing scripts) (hperm : listing.Perm listing') :
    ∃ scripts', Reads listing' scripts' ∧ scripts'.Perm scripts := by
  induction hperm generalizing scripts with
  | nil => exact ⟨scripts, h, .refl _⟩
  | cons entry _ ih =>
    cases h with
    | passed hnone hrest =>
      obtain ⟨scripts', hrest', hsame⟩ := ih hrest
      exact ⟨scripts', .passed hnone hrest', hsame⟩
    | taken hscript hrest =>
      obtain ⟨scripts', hrest', hsame⟩ := ih hrest
      exact ⟨_ :: scripts', .taken hscript hrest', hsame.cons _⟩
  | swap first second rest =>
    cases h with
    | passed hnone hrest =>
      cases hrest with
      | passed hnone' hrest => exact ⟨_, .passed hnone' (.passed hnone hrest), .refl _⟩
      | taken hscript hrest => exact ⟨_, .taken hscript (.passed hnone hrest), .refl _⟩
    | taken hscript hrest =>
      cases hrest with
      | passed hnone hrest => exact ⟨_, .passed hnone (.taken hscript hrest), .refl _⟩
      | taken hscript' hrest => exact ⟨_, .taken hscript' (.taken hscript hrest), .swap _ _ _⟩
  | trans _ _ ih ih' =>
    obtain ⟨scripts₁, hreads₁, hsame₁⟩ := ih h
    obtain ⟨scripts₂, hreads₂, hsame₂⟩ := ih' hreads₁
    exact ⟨scripts₂, hreads₂, hsame₂.trans hsame₁⟩

/-- What the entries of a listing come to, they read as. -/
theorem reads_of_mapM {read : List (Option MigrationScript)} (h : listing.mapM ofEntry = .ok read) :
    Reads listing (read.filterMap fun s => s) := by
  replace h := mapM_eq_ok_iff.1 h
  induction listing generalizing read with
  | nil =>
    obtain rfl := List.map_eq_nil_iff.1 h.symm
    exact .none
  | cons entry listing ih =>
    obtain ⟨one, read, rfl, hone, hread⟩ := List.map_eq_cons_iff.1 h.symm
    have hrest := ih hread.symm
    rcases ofEntry_cases entry with ⟨hnone, hentry⟩ | ⟨script, hscript, hentry⟩ | ⟨-, message, hentry⟩
    · obtain rfl := Except.ok.inj (hone.trans hentry)
      exact .passed hnone hrest
    · obtain rfl := Except.ok.inj (hone.trans hentry)
      exact .taken hscript hrest
    · cases hone.trans hentry

/-- A listing that comes to something has no entry that spoils it. -/
theorem not_spoils_of_mapM {read : List (Option MigrationScript)} (h : listing.mapM ofEntry = .ok read) :
    ∀ entry ∈ listing, ¬ Spoils entry := by
  intro entry hmem
  have hentry : ofEntry entry ∈ read.map .ok := mapM_eq_ok_iff.1 h ▸ List.mem_map_of_mem hmem
  obtain ⟨one, -, hone⟩ := List.mem_map.1 hentry
  exact ofEntry_isOk_iff.1 ⟨one, hone.symm⟩

/-! ## Directories -/

/-- Scripts with different ids stand in one order only. -/
theorem sorted_eq_of_perm (h : scripts.Perm scripts') (hsorted : scripts.Pairwise fun a b => a.id ≤ b.id)
    (hsorted' : scripts'.Pairwise fun a b => a.id ≤ b.id) (hids : (scripts.map (·.id)).Nodup) :
    scripts = scripts' := by
  refine List.Perm.eq_of_pairwise (fun a b ha hb hab hba => ?_) hsorted hsorted' h
  exact List.inj_on_of_nodup_map hids ha (h.mem_iff.2 hb) (Int64.le_antisymm hab hba)

/-- A directory that no entry spoils comes to its scripts in the order of their ids. -/
theorem ofDirectory_ok (h : ∀ entry ∈ listing, ¬ Spoils entry) :
    ∃ scripts read, ofDirectory (some listing) = .ok scripts ∧ Reads listing read ∧
      scripts.Perm read ∧ scripts.Pairwise fun a b => a.id ≤ b.id := by
  rcases all_ok_or_first_error ofEntry listing with
    ⟨read, hread⟩ | ⟨before, entry, after, e, rfl, -, hentry⟩
  · replace hread := mapM_of_map_ok hread
    refine ⟨_, _, ?_, reads_of_mapM hread, List.mergeSort_perm _ _,
      Migrator.pairwise_mergeSort_id MigrationScript.id _⟩
    rw [ofDirectory, Option.getD_some, hread]
  · obtain ⟨read, hok⟩ := ofEntry_isOk_iff.2 (h entry (by simp))
    rw [hentry] at hok
    cases hok

/-- A directory that lists its scripts in the order of their ids comes to them. -/
theorem ofDirectory_of_sorted (h : listing.mapM ofEntry = .ok (scripts.map some))
    (hsorted : scripts.Pairwise fun a b => a.id ≤ b.id) : ofDirectory (some listing) = .ok scripts := by
  have hscripts : (scripts.map some).filterMap (fun s => s) = scripts := by simp
  rw [ofDirectory, Option.getD_some, h]
  simp only [hscripts]
  rw [List.mergeSort_of_pairwise (by simpa using hsorted)]

/-- A directory that an entry spoils is refused. -/
theorem ofDirectory_error (hmem : entry ∈ listing) (h : Spoils entry) :
    ∃ message, ofDirectory (some listing) = .error (.migration .importError message) := by
  rcases all_ok_or_first_error ofEntry listing with
    ⟨read, hread⟩ | ⟨before, first, after, e, rfl, hbefore, hfirst⟩
  · exact absurd h (not_spoils_of_mapM (mapM_of_map_ok hread) entry hmem)
  · have hrefused : ofDirectory (some (before ++ first :: after)) = .error e := by
      rw [ofDirectory, Option.getD_some, mapM_of_first_error hbefore hfirst]
    rcases ofEntry_cases first with ⟨-, hread⟩ | ⟨_, -, hread⟩ | ⟨-, message, hread⟩
    · cases hread.symm.trans hfirst
    · cases hread.symm.trans hfirst
    · obtain rfl := Except.error.inj (hread.symm.trans hfirst)
      exact ⟨message, hrefused⟩

/-- **What a directory comes to.** It is refused as one that cannot be imported exactly if an entry has
the file name of a script but digits that are no id or a content that is no text. Otherwise it comes to
one script for each entry with such a file name, with the decimal value of the digits as its id and
what stands between the underscore and the ending as its name, in the order of the ids. If no id is
repeated, all orders in which the directory may be listed come to this one list. -/
theorem scripts_of_directory (listing : List DirectoryEntry) :
    ((∃ message, ofDirectory (some listing) = .error (.migration .importError message)) ↔
      ∃ entry ∈ listing, Spoils entry) ∧
    ((∀ entry ∈ listing, ¬ Spoils entry) → ∃ scripts read,
      ofDirectory (some listing) = .ok scripts ∧ Reads listing read ∧ scripts.Perm read ∧
      (scripts.Pairwise fun a b => a.id ≤ b.id) ∧
      ((scripts.map (·.id)).Nodup → ∀ listing' : List DirectoryEntry, listing'.Perm listing →
        ofDirectory (some listing') = .ok scripts)) := by
  refine ⟨⟨?_, ?_⟩, fun hclean => ?_⟩
  · rintro ⟨message, hrefused⟩
    refine Classical.byContradiction fun hnone => ?_
    have hclean : ∀ entry ∈ listing, ¬ Spoils entry :=
      fun entry hmem hspoils => hnone ⟨entry, hmem, hspoils⟩
    obtain ⟨scripts, _, hok, -⟩ := ofDirectory_ok hclean
    rw [hrefused] at hok
    cases hok
  · rintro ⟨entry, hmem, hspoils⟩
    exact ofDirectory_error hmem hspoils
  · obtain ⟨scripts, read, hok, hreads, hperm, hsorted⟩ := ofDirectory_ok hclean
    refine ⟨scripts, read, hok, hreads, hperm, hsorted, fun hids listing' hlisting => ?_⟩
    have hclean' : ∀ entry ∈ listing', ¬ Spoils entry :=
      fun entry hmem => hclean entry (hlisting.mem_iff.1 hmem)
    obtain ⟨scripts', read', hok', hreads', hperm', hsorted'⟩ := ofDirectory_ok hclean'
    -- both listings read as the same scripts, which sorting brings into one order
    obtain ⟨read'', hreads'', hread⟩ := hreads.perm hlisting.symm
    obtain rfl := hreads''.unique hreads'
    rw [hok', sorted_eq_of_perm (hperm.trans (hread.symm.trans hperm'.symm)) hsorted hsorted' hids]

/-- Two scripts whose names stand in another order than their ids, and a directory beside them. -/
def numbered : List DirectoryEntry :=
  [⟨encodeText "0010_pets.sql", .file (encodeText "CREATE TABLE pets")⟩,
    ⟨encodeText "2_people.sql", .file (encodeText "CREATE TABLE people")⟩,
    ⟨encodeText "notes.sql", .directory⟩]

theorem scripts_of_directory_numbered :
    (∀ entry ∈ numbered, ¬ Spoils entry) ∧ ∃ scripts,
      scripts = [⟨2, "people", "CREATE TABLE people"⟩, ⟨10, "pets", "CREATE TABLE pets"⟩] ∧
      (scripts.map (·.id)).Nodup ∧ ofDirectory (some numbered) = .ok scripts ∧
      ofDirectory (some numbered.reverse) = .ok scripts := by
  have hread : numbered.mapM ofEntry = .ok
      [some ⟨10, "pets", "CREATE TABLE pets"⟩, some ⟨2, "people", "CREATE TABLE people"⟩, none] := rfl
  have hclean := not_spoils_of_mapM hread
  obtain ⟨scripts, read, hok, hreads, hperm, hsorted, horder⟩ := (scripts_of_directory numbered).2 hclean
  obtain rfl := hreads.unique (reads_of_mapM hread)
  have hids : (scripts.map (·.id)).Nodup := (hperm.map _).nodup_iff.2 (by decide)
  have hscripts : scripts = [⟨2, "people", "CREATE TABLE people"⟩, ⟨10, "pets", "CREATE TABLE pets"⟩] :=
    sorted_eq_of_perm (hperm.trans (.swap _ _ _)) hsorted (by simp) hids
  exact ⟨hclean, scripts, hscripts, hids, hok, horder hids _ (List.reverse_perm _)⟩

end MigrationScript

end SqlClient
