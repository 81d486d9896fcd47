import SourceBaseline.Proofs.Baseline.Document
import SourceBaseline.Proofs.Disk.Ways
import SourceBaseline.Proofs.Lock
import SourceBaseline.Proofs.Staging

/-!
# What is saved loads back

A save that succeeds leaves the text of the stamped document in the place of its target, and neither
the temporary file nor the lock, which go, are on the way there. So the target loads as the document
that the save came to, whatever document stood there before.
-/

set_option autoImplicit false

namespace SourceBaseline

variable {host later : Host} {target : Target} {timeout : Nat}

/-! ## The way to the target -/

/-- A temporary file takes the place of the target, to which the way stays as it was. -/
theorem Disk.stands_of_rename {ready written moved : Disk} {temporary route : Route}
    {content : ByteArray} (created : ready.createFile temporary content = .ok written)
    (renamed : written.rename temporary route = .ok moved)
    (idle : ¬ ready.LeadsToDirectory [] route.names) :
    ∃ parent name, moved.slot .busy route = .ok (parent, name) ∧
      name.utf8ByteSize ≤ nameLimit ∧
      moved.find? (parent ++ [name]) = some (.file content 0) := by
  obtain ⟨place, last, found, free, becomes⟩ := exists_of_createFile created
  have grows : ready.KeepsWays written := becomes.keepsWays fun entry stands => by
    rw [free] at stands
    cases stands
  obtain ⟨oldPlace, oldName, parent, name, entry, oldFound, newFound, short, stands, leaf, noDirectory,
    moves⟩ := exists_of_rename renamed
  cases oldFound.symm.trans (grows.slot found)
  rw [becomes, if_pos rfl] at stands
  cases stands
  -- A way to a directory over the new name would be one over the route, which is idle.
  have unused : ¬ written.LeadsToDirectory parent [name] := by
    intro leads
    obtain ⟨front, spelled, ahead, directory, _⟩ := leads_of_slot newFound
    apply idle
    rw [spelled]
    refine (LeadsToDirectory.concat ahead directory leads).transfer ?_ ?_
    all_goals
      intro location
      rw [becomes location]
      split <;> simp
  -- No way leads over the two names: the new one is unused, and a file has the old one.
  have keeps : written.KeepsWays moved := by
    apply keepsWays_of_forall
    intro location entry here
    rw [moves]
    split
    next new =>
      subst new
      refine .inr ⟨fun same => noDirectory (same ▸ here), ?_⟩
      intro above other same
      obtain ⟨rfl, rfl⟩ := by simpa using same
      exact unused
    next =>
      split
      next old =>
        subst old
        rw [becomes, if_pos rfl] at here
        cases here
        refine .inr ⟨nofun, ?_⟩
        intro above other same
        obtain ⟨rfl, rfl⟩ := by simpa using same
        obtain ⟨_, _, _, _, plain⟩ := leads_of_slot oldFound
        exact not_leadsToDirectory_of_file (by rw [becomes, if_pos rfl]) plain
      next => exact .inl here
  exact ⟨parent, name, keeps.slot newFound, short, by rw [moves, if_pos rfl]⟩

/-- What a lock is dropped with is no way to a directory, and no file but its own. -/
theorem Lock.keeps_of_drop (lock : Lock) {disk : Disk} {place : Location} {content : ByteArray}
    {age : Nat} (stands : disk.find? place = some (.file content age))
    (other : String.fromUTF8? content ≠ some lock.token) :
    disk.KeepsWays (lock.drop disk) ∧
      (lock.drop disk).find? place = some (.file content age) := by
  rcases lock.drop_cases disk with same | ⟨held, removed⟩
  · rw [same]
    exact ⟨⟨fun _ stands => stands, fun _ _ _ stands _ => stands⟩, stands⟩
  obtain ⟨ownContent, read, own⟩ := bind_eq_ok_iff.1 held
  obtain ⟨ownPlace, ownAge, leads, ownStands⟩ := Disk.leads_of_read read
  obtain ⟨parent, name, entry, found, here, leaf, becomes⟩ := Disk.exists_of_removeFile removed
  obtain ⟨front, spelled, ahead, directory, plain⟩ := Disk.leads_of_slot found
  rw [spelled] at leads
  refine ⟨becomes.keepsWays fun entry stands => ?_, ?_⟩
  · cases here.symm.trans stands
    refine ⟨leaf, ?_⟩
    rintro above other same ⟨reached, leadsOn, directoryThere⟩
    obtain ⟨rfl, rfl⟩ : parent = above ∧ name = other := by simpa using same
    cases leads.unique (ahead.append directory leadsOn)
    exact nomatch ownStands.symm.trans directoryThere
  · rw [becomes, if_neg, stands]
    rintro rfl
    cases leads.unique (ahead.append directory (.file plain.1 plain.2 stands))
    cases ownStands.symm.trans stands
    apply other
    split at own
    next text found =>
      cases own
      exact found
    next => cases own

/-! ## Saving and loading -/

/-- The disk on which a document is staged: the lock of its target is taken and its directory is in
place. -/
def Target.readied (target : Target) (timeout : Nat) (host : Host) : Disk :=
  ((do
    let _ ← Lock.acquire target timeout
    Action.ensureDirectory target.directories : Action Unit) host).2.disk

theorem getLast?_token (holder : Holder) (number : Nat) :
    ∃ digit, (holder.text ++ "-" ++ toString number).toList.getLast? = some digit ∧
      digit.isDigit = true := by
  obtain ⟨front, digit, split⟩ := List.eq_nil_or_concat (Nat.toDigits 10 number) |>.resolve_left
    Nat.toDigits_ne_nil
  rw [List.concat_eq_append] at split
  refine ⟨digit, ?_, Json.isDigit_toDigits number digit (by simp [split])⟩
  rw [String.toList_append, List.getLast?_append]
  simp [split]

/-- No document has the text of a token: its last character is a line feed. -/
theorem documentText_ne_token (json : Json) (holder : Holder) (number : Nat) :
    documentText json ≠ holder.text ++ "-" ++ toString number := by
  intro same
  obtain ⟨digit, last, isDigit⟩ := getLast?_token holder number
  rw [← same] at last
  have lineFeed : (documentText json).toList.getLast? = some '\n' := by
    simp [documentText]
  rw [lineFeed] at last
  cases last
  exact absurd isDigit (by decide)

namespace Document

variable {α : Type} [Document α] {document stamped : α} {after : Host}

/-- After a save the target reads as the text of the document with its stamps. -/
theorem readText_of_save (saved : save target document timeout host = (.ok stamped, after))
    (idle : ¬ (target.readied timeout host).LeadsToDirectory [] target.route.names) :
    (∃ prior, stamped = Document.stamped document prior host.now) ∧
      after.disk.readText target.route = .ok (documentText (toJson stamped)) := by
  obtain ⟨lock, locked, ended, acquired, ran, sameAfter⟩ :=
    (Lock.holding_cases saved).resolve_left nofun
  obtain ⟨⟨kept, staged⟩, between, wrote, ran⟩ := Action.bind_eq_ok_iff.1 ran
  obtain ⟨_, moved, committed, same⟩ := Action.bind_eq_ok_iff.1 ran
  cases same
  obtain ⟨stamps, wrote⟩ := exists_of_stage wrote
  obtain ⟨ready, written, ensured, wrote, sameBetween⟩ := StagedWrite.exists_of_stage wrote
  obtain ⟨targeted, _, created⟩ := StagedWrite.createFile_of_writeTemporary wrote
  obtain ⟨replaced, renamed, sameMoved⟩ := StagedWrite.exists_of_commit committed
  obtain ⟨_, taken, _, sameLock, _, sameLocked⟩ := Lock.exists_of_acquire acquired
  subst sameLock
  have now : locked.now = host.now := by rw [sameLocked]
  have readied : target.readied timeout host = ready := by
    rw [Target.readied, Action.bind_apply, acquired]
    exact congrArg Prod.snd ensured
  rw [readied] at idle
  rw [targeted, sameBetween] at renamed
  obtain ⟨parent, name, found, short, stands⟩ := Disk.stands_of_rename created renamed idle
  have other : String.fromUTF8? (bytes stamped) ≠
      some (host.holder.text ++ "-" ++ toString host.tokens) := by
    rw [fromUTF8?_bytes]
    intro same
    exact documentText_ne_token _ _ _ (Option.some.inj same)
  obtain ⟨keeps, standsThen⟩ := Lock.keeps_of_drop ⟨target, _⟩ stands other
  have foundThen : (Lock.drop ⟨target, _⟩ replaced).slot .busy target.route = .ok (parent, name) :=
    keeps.slot found
  have read := Disk.read_of_slot foundThen short standsThen
  rw [sameMoved] at sameAfter
  subst sameAfter
  refine ⟨⟨_, by rw [stamps, now]⟩, ?_⟩
  unfold Disk.readText
  rw [read]
  simp only [bind, Except.bind, fromUTF8?_bytes]

/-- A directory with a document that records when it was first written. -/
def shelfDisk : Disk :=
  (Disk.blank.put [] "shelf" .directory).put ["shelf"] "saved.json"
    (.file "\x7b\"createdAt\": \"before\"\x7d".toUTF8 0)

def shelfHost : Host := ⟨shelfDisk, .outsideRepository, "now", standardHolder, 0⟩

def shelfTarget : Target := .located ["shelf", "saved.json"]

/-- A baseline with quotes, controls, backslashes, other alphabets and empty texts in it. -/
def oddBaseline : ChecksumBaseline where
  createdAt := ""
  description := "\"quoted\" \\ \n"
  detectedLanguage := "\x00\x1f"
  docsExist := true
  docsPath := some ""
  fileCount := 7
  files := .ofList [("", "é"), ("a\tb", "")]
  repoName := "名"
  schemaVersion := ""
  timestamp := ""
  gitMetadata := some ⟨none, some "\x7f"⟩

def oddSymbols : SymbolBaseline :=
  .fresh "\\root" (.ofList [("", []), ("\"", [⟨0, some "", none, "é", .record, 1, "\n", some "名"⟩])])

end Document

end SourceBaseline
