import Mathlib.Data.List.Nodup
import SourceBaseline.Proofs.Beside
import SourceBaseline.Proofs.Cleanup
import SourceBaseline.Proofs.Disk.Slots

/-!
# Who holds a lock

Holders take the lock in one place and give it back, one call after another, and between the calls
anybody may write, age or remove its file. What is in the file decides: a lock is taken where nothing
stands or a stale lock that can be set aside, and a holder gives back no file but its own.
-/

set_option autoImplicit false

namespace SourceBaseline

/-- The token of the next lock that is taken on the host. -/
def Host.token (host : Host) : String :=
  host.holder.text ++ "-" ++ toString host.tokens

theorem Host.undivided (host : Host) : '/' ∉ host.token.toList :=
  undivided_token host.holder host.tokens

namespace Disk

/-- The file in a place holds the text. -/
def HoldsText (disk : Disk) (place : Location) (text : String) : Prop :=
  ∃ content age, disk.find? place = some (.file content age) ∧ String.fromUTF8? content = some text

end Disk

namespace Lock

variable {disk ready : Disk} {host later : Host} {target : Target} {parent : Location} {name : String}
  {timeout : Nat} {lock : Lock} {special : Fault}

/-! ## Taking and giving back -/

/-- A lock can be taken in a place where nothing stands, if its name fits, and where a stale lock stands
that is text, if the name and the path under which it is set aside fit. -/
inductive Obtainable (disk : Disk) (parent : Location) (name : String) (target : Target)
    (token : String) : Prop where
  | free : disk.find? (parent ++ [name]) = none → name.utf8ByteSize ≤ Disk.nameLimit →
      Obtainable disk parent name target token
  | stale {content : ByteArray} {age : Nat} {text : String} :
      disk.find? (parent ++ [name]) = some (.file content age) → staleAge ≤ age →
      String.fromUTF8? content = some text →
      (name ++ ".stale-" ++ token).utf8ByteSize ≤ Disk.nameLimit →
      Disk.checkPath (grave target.lock token).route.path = .ok () →
      Obtainable disk parent name target token

theorem Obtainable.congr {other : Disk} {token : String}
    (same : other.find? (parent ++ [name]) = disk.find? (parent ++ [name]))
    (obtainable : Obtainable disk parent name target token) :
    Obtainable other parent name target token := by
  cases obtainable with
  | free missing short => exact .free (same.trans missing) short
  | stale stands old reads short clean => exact .stale (same.trans stands) old reads short clean

theorem Obtainable.leaf {token : String} (obtainable : Obtainable disk parent name target token) :
    disk.find? (parent ++ [name]) ≠ some .directory := by
  cases obtainable with
  | free missing _ => simp [missing]
  | stale stands => simp [stands]

theorem Obtainable.short {token : String} (obtainable : Obtainable disk parent name target token) :
    name.utf8ByteSize ≤ Disk.nameLimit := by
  cases obtainable with
  | free _ short => exact short
  | stale _ _ _ short =>
      rw [String.utf8ByteSize_append, String.utf8ByteSize_append] at short
      omega

section Taking

variable {token : String} (found : ready.slot .exists target.lock.route = .ok (parent, name))
  (solid : ∀ link, ready.find? (parent ++ [name]) ≠ some (.link link))

include found solid

theorem staleText?_eq_some_iff {text : String} :
    staleText? ready target.lock.route = some text ↔
      name.utf8ByteSize ≤ Disk.nameLimit ∧ ∃ content age,
        ready.find? (parent ++ [name]) = some (.file content age) ∧ staleAge ≤ age ∧
          String.fromUTF8? content = some text := by
  rw [staleText?, Disk.inspect_of_slot found solid]
  by_cases long : Disk.nameLimit < name.utf8ByteSize
  · rw [if_pos long]
    simp [Nat.not_le.2 long]
  · rw [if_neg long]
    cases stands : ready.find? (parent ++ [name]) with
    | none => simp
    | some entry => cases entry <;> simp [Nat.not_lt.1 long]

theorem breakStale_of_stale (undivided : '/' ∉ token.toList) {content : ByteArray} {age : Nat}
    {text : String} (stands : ready.find? (parent ++ [name]) = some (.file content age))
    (old : staleAge ≤ age) (reads : String.fromUTF8? content = some text)
    (short : (name ++ ".stale-" ++ token).utf8ByteSize ≤ Disk.nameLimit)
    (clean : Disk.checkPath (grave target.lock token).route.path = .ok ())
    (unused : ready.find? (parent ++ [name ++ ".stale-" ++ token]) = none) :
    ∃ broken, breakStale target.lock token ready = some broken ∧
      ready.Becomes (parent ++ [name]) none broken := by
  have own : name.utf8ByteSize ≤ Disk.nameLimit := Obtainable.short (.stale stands old reads short clean)
  have stale : staleText? ready target.lock.route = some text :=
    (staleText?_eq_some_iff found solid).2 ⟨own, content, age, stands, old, reads⟩
  obtain ⟨_, bare, aside⟩ := slot_grave undivided found
  have newFound := aside clean
  obtain ⟨moved, renamed, moves⟩ :=
    Disk.exists_rename (Disk.slot_of_slot found) newFound bare short stands (by simp) unused
  obtain ⟨_, _, _, _, plain⟩ := Disk.leads_of_slot found
  -- Only the name of the lock is given up, and no way leads over it: a file has it.
  have keeps : ready.KeepsWays moved := by
    apply Disk.keepsWays_of_forall
    intro location entry here
    rw [moves]
    split
    next new =>
      cases (new ▸ here).symm.trans unused
    next =>
      split
      next gone =>
        subst gone
        cases stands.symm.trans here
        refine .inr ⟨by simp, fun above last same => ?_⟩
        obtain ⟨rfl, rfl⟩ : parent = above ∧ name = last := by simpa using same
        exact Disk.not_leadsToDirectory_of_file stands plain
      next => exact .inl here
  have there : moved.find? (parent ++ [name ++ ".stale-" ++ token]) = some (.file content age) := by
    rw [moves, if_pos rfl]
  obtain ⟨broken, removed, gone⟩ := Disk.removeFile_of_stands (keeps.slot newFound) there (by simp)
  refine ⟨broken, ?_, fun location => ?_⟩
  · rw [breakStale, stale, renamed]
    dsimp only
    rw [removed]
    rfl
  · rw [gone, moves]
    split
    next here => rw [here, unused, ite_self]
    next => rfl

theorem take_of_obtainable (timeout : Nat) (undivided : '/' ∉ token.toList)
    (unused : ready.find? (parent ++ [name ++ ".stale-" ++ token]) = none)
    (obtainable : Obtainable ready parent name target token) :
    ∃ taken, take target.lock token timeout ready = .ok taken ∧
      ready.Becomes (parent ++ [name]) (some (.file token.toUTF8 0)) taken := by
  have own := obtainable.short
  cases obtainable with
  | free missing _ =>
      obtain ⟨taken, created, becomes⟩ := Disk.createFile_of_free found own missing
      exact ⟨taken, by rw [take, created], becomes⟩
  | stale stands old reads short clean =>
      obtain ⟨broken, breaks, clears⟩ :=
        breakStale_of_stale found solid undivided stands old reads short clean unused
      have keeps := Disk.keepsWays_of_becomes found (by simp [stands]) solid clears
      obtain ⟨taken, created, becomes⟩ :=
        Disk.createFile_of_free (keeps.slot found) own (by rw [clears, if_pos rfl])
      refine ⟨taken, ?_, fun location => ?_⟩
      · rw [take, Disk.createFile_of_stands found stands]
        dsimp only
        rw [breaks]
        dsimp only
        rw [created]
        rfl
      · rw [becomes, clears]
        split <;> rfl

theorem obtainable_of_breakStale (undivided : '/' ∉ token.toList) {broken : Disk}
    (breaks : breakStale target.lock token ready = some broken) :
    Obtainable ready parent name target token := by
  rw [breakStale] at breaks
  split at breaks
  next text moved stale renamed =>
    obtain ⟨_, content, age, stands, old, reads⟩ := (staleText?_eq_some_iff found solid).1 stale
    obtain ⟨_, _, _, _, _, _, newFound, short, _⟩ := Disk.exists_of_rename renamed
    obtain ⟨clean, _⟩ := Disk.slot_eq_ok_iff.1 newFound
    obtain ⟨_, _, aside⟩ := slot_grave undivided found
    cases newFound.symm.trans (aside clean)
    exact .stale stands old reads short clean
  next => cases breaks

theorem obtainable_of_take (undivided : '/' ∉ token.toList) {taken : Disk}
    (took : take target.lock token timeout ready = .ok taken) :
    Obtainable ready parent name target token := by
  obtain ⟨before, start, created⟩ := exists_of_take took
  rcases start with rfl | breaks
  · obtain ⟨_, _, same, missing, _⟩ := Disk.exists_of_createFile created
    cases found.symm.trans same
    refine .free missing (Nat.not_lt.1 fun long => ?_)
    rw [Disk.createFile_of_long found long missing] at created
    cases created
  · exact obtainable_of_breakStale found solid undivided breaks

theorem take_of_held (timeout : Nat) (undivided : '/' ∉ token.toList) {entry : Entry}
    (stands : ready.find? (parent ++ [name]) = some entry)
    (held : ¬ Obtainable ready parent name target token) :
    take target.lock token timeout ready = .error (.locked name timeout) := by
  rw [take, Disk.createFile_of_stands found stands]
  dsimp only
  cases breaks : breakStale target.lock token ready with
  | none => rw [(slot_grave undivided found).1]
  | some broken => exact absurd (obtainable_of_breakStale found solid undivided breaks) held

end Taking

/-- The directory of a target's lock can be made, and then the lock is found in its place. Nothing
stands where only this host would set it aside. -/
structure Reaches (target : Target) (host : Host) (parent : Location) (name : String) (ready : Disk) :
    Prop where
  ensured : host.disk.ensureDirectory target.lock.directories = (.ok (), ready)
  found : ready.slot .exists target.lock.route = .ok (parent, name)
  unused : ready.find? (parent ++ [name ++ ".stale-" ++ host.token]) = none

theorem Reaches.builds (reaches : Reaches target host parent name ready) : host.disk.Builds ready := by
  have builds : host.disk.Builds (host.disk.ensureDirectory target.lock.directories).2 :=
    Disk.builds_ensureDirectory target.lock.directories
  rwa [reaches.ensured] at builds

/-- Making the directory of the lock leaves the place alone, or else a directory stands in it. -/
theorem Reaches.obtainable_iff {token : String} (reaches : Reaches target host parent name ready) :
    Obtainable ready parent name target token ↔ Obtainable host.disk parent name target token ∧
      ready.find? (parent ++ [name]) = host.disk.find? (parent ++ [name]) := by
  constructor
  · intro obtainable
    rcases reaches.builds (parent ++ [name]) with same | ⟨_, built⟩
    · exact ⟨obtainable.congr same.symm, same⟩
    · exact absurd built obtainable.leaf
  · rintro ⟨obtainable, same⟩
    exact obtainable.congr same

variable (reaches : Reaches target host parent name ready)

include reaches

theorem acquire_eq :
    acquire target timeout host =
      match take target.lock host.token timeout ready with
      | .ok taken => (.ok ⟨target, host.token⟩, { host with disk := taken, tokens := host.tokens + 1 })
      | .error error => (.error error, { host with disk := ready, tokens := host.tokens + 1 }) := by
  rw [acquire, Action.bind_apply]
  unfold Action.ensureDirectory
  rw [reaches.ensured]
  dsimp only [Outcome.ofDisk]
  rw [Action.bind_apply]
  rfl

variable (solid : ∀ link, host.disk.find? (parent ++ [name]) ≠ some (.link link))

include solid

theorem acquire_of_obtainable (obtainable : Obtainable ready parent name target host.token) :
    ∃ taken, acquire target timeout host =
        (.ok ⟨target, host.token⟩, { host with disk := taken, tokens := host.tokens + 1 }) ∧
      ready.Becomes (parent ++ [name]) (some (.file host.token.toUTF8 0)) taken := by
  obtain ⟨taken, took, becomes⟩ := take_of_obtainable reaches.found (reaches.builds.solid solid)
    timeout host.undivided reaches.unused obtainable
  exact ⟨taken, by rw [acquire_eq reaches, took], becomes⟩

theorem obtainable_of_acquire {lock : Lock} (acquired : acquire target timeout host = (.ok lock, later)) :
    Obtainable ready parent name target host.token := by
  rw [acquire_eq reaches] at acquired
  split at acquired
  next taken took =>
    exact obtainable_of_take reaches.found (reaches.builds.solid solid) host.undivided took
  next => cases acquired

theorem becomes_of_acquire (acquired : acquire target timeout host = (.ok lock, later)) :
    lock = ⟨target, host.token⟩ ∧
      ready.Becomes (parent ++ [name]) (some (.file host.token.toUTF8 0)) later.disk := by
  obtain ⟨taken, same, becomes⟩ := acquire_of_obtainable reaches solid
    (obtainable_of_acquire reaches solid acquired)
  cases acquired.symm.trans same
  exact ⟨rfl, becomes⟩

theorem acquire_ok_iff :
    (∃ lock later, acquire target timeout host = (.ok lock, later)) ↔
      Obtainable host.disk parent name target host.token ∧
        ready.find? (parent ++ [name]) = host.disk.find? (parent ++ [name]) := by
  rw [← reaches.obtainable_iff]
  constructor
  · rintro ⟨lock, later, acquired⟩
    exact obtainable_of_acquire reaches solid acquired
  · intro obtainable
    obtain ⟨_, acquired, _⟩ := acquire_of_obtainable reaches solid obtainable
    exact ⟨_, _, acquired⟩

/-- A lock that cannot be had although something is there is waited for in vain. -/
theorem acquire_of_held (timeout : Nat) {entry : Entry}
    (stands : ready.find? (parent ++ [name]) = some entry)
    (held : ¬ Obtainable ready parent name target host.token) :
    (acquire target timeout host).1 = .error (.locked name timeout) := by
  rw [acquire_eq reaches, take_of_held reaches.found (reaches.builds.solid solid) timeout
    host.undivided stands held]

omit solid in
theorem disk_of_refused {error : Error} (refused : acquire target timeout host = (.error error, later)) :
    later.disk = ready := by
  rw [acquire_eq reaches] at refused
  split at refused
  next => cases refused
  next => cases refused; rfl

theorem locked_of_refused {error : Error}
    (refused : acquire target timeout host = (.error error, later))
    (stood : later.disk.find? (parent ++ [name]) ≠ none) : error = .locked name timeout := by
  rw [disk_of_refused reaches refused] at stood
  obtain ⟨entry, stands⟩ := Option.ne_none_iff_exists'.1 stood
  have held : ¬ Obtainable ready parent name target host.token := by
    intro obtainable
    obtain ⟨_, acquired, _⟩ := acquire_of_obtainable reaches solid obtainable
    cases refused.symm.trans acquired
  have locked := acquire_of_held reaches solid timeout stands held
  rw [refused] at locked
  exact Except.error.inj locked

omit reaches solid

/-- The path of the lock leads to its file in the place, where no link stands. -/
structure Watches (lock : Lock) (disk : Disk) (parent : Location) (name : String) : Prop where
  found : disk.slot .exists lock.target.lock.route = .ok (parent, name)
  short : name.utf8ByteSize ≤ Disk.nameLimit
  solid : ∀ link, disk.find? (parent ++ [name]) ≠ some (.link link)

theorem watches_of_acquire (reaches : Reaches target host parent name ready)
    (solid : ∀ link, host.disk.find? (parent ++ [name]) ≠ some (.link link))
    (acquired : acquire target timeout host = (.ok lock, later)) :
    lock.Watches later.disk parent name := by
  have obtainable := obtainable_of_acquire reaches solid acquired
  obtain ⟨rfl, becomes⟩ := becomes_of_acquire reaches solid acquired
  have keeps := Disk.keepsWays_of_becomes reaches.found obtainable.leaf (reaches.builds.solid solid)
    becomes
  refine ⟨keeps.slot reaches.found, obtainable.short, ?_⟩
  rw [becomes, if_pos rfl]
  simp

variable (watches : lock.Watches disk parent name)

include watches

theorem Watches.of_becomes {value : Option Entry} (leaf : disk.find? (parent ++ [name]) ≠ some .directory)
    (plain : ∀ link, value ≠ some (.link link)) (becomes : disk.Becomes (parent ++ [name]) value ready) :
    lock.Watches ready parent name := by
  refine ⟨(Disk.keepsWays_of_becomes watches.found leaf watches.solid becomes).slot watches.found,
    watches.short, ?_⟩
  rw [becomes, if_pos rfl]
  exact plain

theorem Watches.of_builds (builds : disk.Builds ready) : lock.Watches ready parent name :=
  ⟨builds.keepsWays.slot watches.found, watches.short, builds.solid watches.solid⟩

theorem isHeld_iff : lock.isHeld disk = true ↔ disk.HoldsText (parent ++ [name]) lock.token := by
  unfold isHeld Disk.readText Disk.read Disk.HoldsText
  rw [Disk.inspect_of_slot watches.found watches.solid, if_neg (Nat.not_lt.2 watches.short)]
  cases stands : disk.find? (parent ++ [name]) with
  | none => simp [bind, Except.bind]
  | some entry =>
      cases entry with
      | file content age =>
          cases reads : String.fromUTF8? content <;> simp [bind, Except.bind, reads]
      | directory => simp [bind, Except.bind]
      | link target => simp [bind, Except.bind]

omit watches in
theorem isHeld_of_acquire (reaches : Reaches target host parent name ready)
    (solid : ∀ link, host.disk.find? (parent ++ [name]) ≠ some (.link link))
    (acquired : acquire target timeout host = (.ok lock, later)) : lock.isHeld later.disk = true := by
  rw [isHeld_iff (watches_of_acquire reaches solid acquired)]
  obtain ⟨rfl, becomes⟩ := becomes_of_acquire reaches solid acquired
  exact ⟨_, 0, by rw [becomes, if_pos rfl], fromUTF8?_toUTF8 _⟩

theorem becomes_of_held (holds : disk.HoldsText (parent ++ [name]) lock.token) :
    disk.Becomes (parent ++ [name]) none (lock.drop disk) := by
  have held := (isHeld_iff watches).2 holds
  obtain ⟨content, age, stands, _⟩ := holds
  obtain ⟨after, removed, becomes⟩ :=
    Disk.removeFile_of_stands (Disk.slot_of_slot watches.found) stands (by simp)
  rw [drop, if_pos held, removed]
  exact becomes

theorem drop_of_lost (lost : ¬ disk.HoldsText (parent ++ [name]) lock.token) : lock.drop disk = disk := by
  rw [drop, if_neg]
  rwa [isHeld_iff watches]

theorem drop_removes_iff :
    (disk.find? (parent ++ [name]) ≠ none ∧ (lock.drop disk).find? (parent ++ [name]) = none) ↔
      disk.HoldsText (parent ++ [name]) lock.token := by
  constructor
  · rintro ⟨stood, removed⟩
    by_contra lost
    rw [drop_of_lost watches lost] at removed
    exact stood removed
  · intro holds
    obtain ⟨content, age, stands, _⟩ := id holds
    exact ⟨by simp [stands], by rw [becomes_of_held watches holds, if_pos rfl]⟩

end Lock

/-! ## Holders in turn -/

/-- What the holders of the lock in one place share: the disk, the locks that were taken and not given
back yet, and the tokens that were given out. -/
structure Tenancy where
  disk : Disk
  locks : List Lock
  spent : List String

namespace Tenancy

/-- One call of a holder, or what others do to the file of the lock between two calls. They write files,
and no token that was given out. -/
inductive Move (parent : Location) (name : String) : Tenancy → Tenancy → Prop where
  | acquire {disk locks spent host target timeout ready lock later} :
      host.disk = disk → Lock.Reaches target host parent name ready → host.token ∉ spent →
      Lock.acquire target timeout host = (.ok lock, later) →
      Move parent name ⟨disk, locks, spent⟩ ⟨later.disk, lock :: locks, host.token :: spent⟩
  | refuse {disk locks spent host target timeout ready error later} :
      host.disk = disk → Lock.Reaches target host parent name ready → host.token ∉ spent →
      Lock.acquire target timeout host = (.error error, later) →
      Move parent name ⟨disk, locks, spent⟩ ⟨later.disk, locks, host.token :: spent⟩
  | drop {disk locks spent lock} :
      lock ∈ locks →
      Move parent name ⟨disk, locks, spent⟩ ⟨lock.drop disk, locks.erase lock, spent⟩
  | overwrite {disk locks spent content age after} :
      disk.find? (parent ++ [name]) ≠ some .directory →
      (∀ token ∈ spent, String.fromUTF8? content ≠ some token) →
      disk.Becomes (parent ++ [name]) (some (.file content age)) after →
      Move parent name ⟨disk, locks, spent⟩ ⟨after, locks, spent⟩
  | age {disk locks spent content age older after} :
      disk.find? (parent ++ [name]) = some (.file content age) →
      disk.Becomes (parent ++ [name]) (some (.file content older)) after →
      Move parent name ⟨disk, locks, spent⟩ ⟨after, locks, spent⟩
  | remove {disk locks spent after} :
      disk.find? (parent ++ [name]) ≠ some .directory →
      disk.Becomes (parent ++ [name]) none after →
      Move parent name ⟨disk, locks, spent⟩ ⟨after, locks, spent⟩

/-- The locks that are out have tokens of their own, and each watches the file in the place. -/
structure Sound (parent : Location) (name : String) (tenancy : Tenancy) : Prop where
  solid : ∀ link, tenancy.disk.find? (parent ++ [name]) ≠ some (.link link)
  apart : (tenancy.locks.map Lock.token).Nodup
  spent : ∀ lock ∈ tenancy.locks, lock.token ∈ tenancy.spent
  watches : ∀ lock ∈ tenancy.locks, lock.Watches tenancy.disk parent name

variable {parent : Location} {name : String} {before after start tenancy : Tenancy} {token : String}

theorem Sound.keeps_of_becomes {value : Option Entry} {disk : Disk} (sound : Sound parent name tenancy)
    (leaf : tenancy.disk.find? (parent ++ [name]) ≠ some .directory)
    (plain : ∀ link, value ≠ some (.link link))
    (becomes : tenancy.disk.Becomes (parent ++ [name]) value disk) :
    (∀ link, disk.find? (parent ++ [name]) ≠ some (.link link)) ∧
      ∀ lock ∈ tenancy.locks, lock.Watches disk parent name := by
  refine ⟨?_, fun lock live => (sound.watches lock live).of_becomes leaf plain becomes⟩
  rw [becomes, if_pos rfl]
  exact plain

/-- A call or what others do leaves no link in the place, and the path of every lock leads there still. -/
theorem Move.keeps (sound : Sound parent name before) (move : Move parent name before after) :
    (∀ link, after.disk.find? (parent ++ [name]) ≠ some (.link link)) ∧
      ∀ lock ∈ before.locks, lock.Watches after.disk parent name := by
  cases move with
  | acquire same reaches _ acquired =>
      subst same
      have leaf := (Lock.obtainable_of_acquire reaches sound.solid acquired).leaf
      obtain ⟨rfl, becomes⟩ := Lock.becomes_of_acquire reaches sound.solid acquired
      refine ⟨?_, fun lock live => ?_⟩
      · dsimp only
        rw [becomes, if_pos rfl]
        simp
      · have watches := (sound.watches lock live).of_builds reaches.builds
        exact watches.of_becomes leaf (by simp) becomes
  | refuse same reaches _ refused =>
      subst same
      dsimp only
      rw [Lock.disk_of_refused reaches refused]
      exact ⟨reaches.builds.solid sound.solid,
        fun lock live => (sound.watches lock live).of_builds reaches.builds⟩
  | @drop disk locks spent lock live =>
      have watches := sound.watches lock live
      by_cases holds : disk.HoldsText (parent ++ [name]) lock.token
      · obtain ⟨content, age, stands, _⟩ := id holds
        exact sound.keeps_of_becomes (by simp [stands]) (by simp)
          (Lock.becomes_of_held watches holds)
      · dsimp only
        rw [Lock.drop_of_lost watches holds]
        exact ⟨sound.solid, sound.watches⟩
  | overwrite leaf _ becomes => exact sound.keeps_of_becomes leaf (by simp) becomes
  | age stands becomes => exact sound.keeps_of_becomes (by simp [stands]) (by simp) becomes
  | remove leaf becomes => exact sound.keeps_of_becomes leaf (by simp) becomes

theorem Move.sound (sound : Sound parent name before) (move : Move parent name before after) :
    Sound parent name after := by
  obtain ⟨solid, watches⟩ := move.keeps sound
  cases move with
  | acquire same reaches fresh acquired =>
      subst same
      have own := Lock.watches_of_acquire reaches sound.solid acquired
      obtain ⟨rfl, _⟩ := Lock.becomes_of_acquire reaches sound.solid acquired
      refine ⟨solid, List.nodup_cons.2 ⟨fun member => ?_, sound.apart⟩, ?_, ?_⟩
      · obtain ⟨other, live, same⟩ := List.mem_map.1 member
        dsimp only at same
        exact fresh (same ▸ sound.spent other live)
      · rintro lock (_ | ⟨_, live⟩)
        · exact .head _
        · exact .tail _ (sound.spent lock live)
      · rintro lock (_ | ⟨_, live⟩)
        · exact own
        · exact watches lock live
  | refuse =>
      exact ⟨solid, sound.apart, fun lock live => .tail _ (sound.spent lock live), watches⟩
  | drop =>
      exact ⟨solid, sound.apart.sublist (List.erase_sublist.map Lock.token),
        fun lock live => sound.spent lock (List.mem_of_mem_erase live),
        fun lock live => watches lock (List.mem_of_mem_erase live)⟩
  | overwrite => exact ⟨solid, sound.apart, sound.spent, watches⟩
  | age => exact ⟨solid, sound.apart, sound.spent, watches⟩
  | remove => exact ⟨solid, sound.apart, sound.spent, watches⟩

theorem Move.spent_subset (move : Move parent name before after) : before.spent ⊆ after.spent := by
  cases move with
  | acquire => exact List.subset_cons_self ..
  | refuse => exact List.subset_cons_self ..
  | drop => exact List.Subset.refl _
  | overwrite => exact List.Subset.refl _
  | age => exact List.Subset.refl _
  | remove => exact List.Subset.refl _

/-- A token that was given out is not in the file unless it was there before. -/
theorem Move.held_before (sound : Sound parent name before) (move : Move parent name before after)
    (spent : token ∈ before.spent) (holds : after.disk.HoldsText (parent ++ [name]) token) :
    before.disk.HoldsText (parent ++ [name]) token := by
  obtain ⟨content, age, stands, reads⟩ := id holds
  cases move with
  | acquire same reaches fresh acquired =>
      subst same
      obtain ⟨rfl, becomes⟩ := Lock.becomes_of_acquire reaches sound.solid acquired
      dsimp only at stands
      rw [becomes, if_pos rfl] at stands
      cases stands
      rw [fromUTF8?_toUTF8] at reads
      exact absurd (Option.some.inj reads ▸ spent) fresh
  | refuse same reaches _ refused =>
      subst same
      dsimp only at stands
      rw [Lock.disk_of_refused reaches refused] at stands
      exact ⟨content, age, reaches.builds.file_iff.1 stands, reads⟩
  | @drop disk locks spent lock live =>
      have watches := sound.watches lock live
      by_cases held : disk.HoldsText (parent ++ [name]) lock.token
      · dsimp only at stands
        rw [Lock.becomes_of_held watches held, if_pos rfl] at stands
        cases stands
      · dsimp only at holds
        rwa [Lock.drop_of_lost watches held] at holds
  | overwrite _ foreign becomes =>
      dsimp only at stands
      rw [becomes, if_pos rfl] at stands
      cases stands
      exact absurd reads (foreign token spent)
  | age stood becomes =>
      dsimp only at stands
      rw [becomes, if_pos rfl] at stands
      cases stands
      exact ⟨_, _, stood, reads⟩
  | remove _ becomes =>
      dsimp only at stands
      rw [becomes, if_pos rfl] at stands
      cases stands

theorem sound_of_run (empty : start.locks = [])
    (plain : ∀ link, start.disk.find? (parent ++ [name]) ≠ some (.link link))
    (run : Relation.ReflTransGen (Move parent name) start tenancy) : Sound parent name tenancy := by
  induction run with
  | refl => exact ⟨plain, by simp [empty], by simp [empty], by simp [empty]⟩
  | tail _ move ih => exact move.sound ih

/-- A token in the file has been there since it was given out, whatever the holders and others did. -/
theorem held_since {later : Tenancy} (sound : Sound parent name tenancy)
    (run : Relation.ReflTransGen (Move parent name) tenancy later) (spent : token ∈ tenancy.spent)
    (holds : later.disk.HoldsText (parent ++ [name]) token) :
    tenancy.disk.HoldsText (parent ++ [name]) token := by
  -- Backwards in time: each move is taken off the front of the run.
  induction run using Relation.ReflTransGen.head_induction_on with
  | refl => exact holds
  | head move _ ih => exact move.held_before sound spent (ih (move.sound sound) (move.spent_subset spent))

theorem Sound.eq_of_held (sound : Sound parent name tenancy) {lock other : Lock}
    (live : lock ∈ tenancy.locks) (liveToo : other ∈ tenancy.locks)
    (held : lock.isHeld tenancy.disk = true) (heldToo : other.isHeld tenancy.disk = true) :
    lock = other := by
  obtain ⟨_, _, stands, reads⟩ := (Lock.isHeld_iff (sound.watches lock live)).1 held
  obtain ⟨_, _, standsToo, readsToo⟩ := (Lock.isHeld_iff (sound.watches other liveToo)).1 heldToo
  cases stands.symm.trans standsToo
  exact List.inj_on_of_nodup_map sound.apart live liveToo (Option.some.inj (reads.symm.trans readsToo))

/-- In whatever order holders take and drop the lock and others write, age and remove its file, it is
taken exactly where it can be had, who is refused leaves every file as it was, and a holder that drops
it removes exactly its own file. So one of the holders has it at most, none of them takes away what
another one has, and who has lost it does not come by it again. -/
theorem one_holder_at_a_time (empty : start.locks = [])
    (plain : ∀ link, start.disk.find? (parent ++ [name]) ≠ some (.link link))
    (run : Relation.ReflTransGen (Move parent name) start tenancy) :
    (∀ host target timeout ready, host.disk = tenancy.disk →
      Lock.Reaches target host parent name ready →
      ((∃ lock later, Lock.acquire target timeout host = (.ok lock, later)) ↔
          Lock.Obtainable tenancy.disk parent name target host.token ∧
            ready.find? (parent ++ [name]) = tenancy.disk.find? (parent ++ [name])) ∧
        (∀ lock later, Lock.acquire target timeout host = (.ok lock, later) →
          lock.isHeld later.disk = true) ∧
        ∀ error later, Lock.acquire target timeout host = (.error error, later) →
          tenancy.disk.Builds later.disk ∧
            (later.disk.find? (parent ++ [name]) ≠ none → error = .locked name timeout)) ∧
      (∀ lock ∈ tenancy.locks,
        ((tenancy.disk.find? (parent ++ [name]) ≠ none ∧
            (lock.drop tenancy.disk).find? (parent ++ [name]) = none) ↔
          tenancy.disk.HoldsText (parent ++ [name]) lock.token) ∧
        (tenancy.disk.HoldsText (parent ++ [name]) lock.token →
          tenancy.disk.Becomes (parent ++ [name]) none (lock.drop tenancy.disk)) ∧
        (¬ tenancy.disk.HoldsText (parent ++ [name]) lock.token →
          lock.drop tenancy.disk = tenancy.disk)) ∧
      (∀ lock ∈ tenancy.locks, ∀ other ∈ tenancy.locks, lock.isHeld tenancy.disk = true →
        other.isHeld tenancy.disk = true → lock = other) ∧
      (∀ lock ∈ tenancy.locks, ∀ other ∈ tenancy.locks, other ≠ lock →
        other.isHeld tenancy.disk = true → lock.drop tenancy.disk = tenancy.disk) ∧
      ∀ later, Relation.ReflTransGen (Move parent name) tenancy later → ∀ lock ∈ tenancy.locks,
        later.disk.HoldsText (parent ++ [name]) lock.token →
        tenancy.disk.HoldsText (parent ++ [name]) lock.token := by
  have sound := sound_of_run empty plain run
  refine ⟨?_, ?_, fun _ live _ liveToo => sound.eq_of_held live liveToo, ?_, ?_⟩
  · intro host target timeout ready same reaches
    rw [← same]
    have solid : ∀ link, host.disk.find? (parent ++ [name]) ≠ some (.link link) := same ▸ sound.solid
    refine ⟨Lock.acquire_ok_iff reaches solid, fun _ _ => Lock.isHeld_of_acquire reaches solid,
      fun error later refused => ⟨?_, Lock.locked_of_refused reaches solid refused⟩⟩
    rw [Lock.disk_of_refused reaches refused]
    exact reaches.builds
  · intro lock live
    have watches := sound.watches lock live
    exact ⟨Lock.drop_removes_iff watches, Lock.becomes_of_held watches, Lock.drop_of_lost watches⟩
  · intro lock live other liveToo distinct heldToo
    apply Lock.drop_of_lost (sound.watches lock live)
    intro holds
    have held := (Lock.isHeld_iff (sound.watches lock live)).2 holds
    exact distinct (sound.eq_of_held liveToo live heldToo held)
  · intro later onward lock live
    exact held_since sound onward (sound.spent lock live)

/-- A directory for a document. -/
def benchDisk : Disk :=
  Disk.blank.put [] "bench" .directory

/-- A host that has given out so many tokens. -/
def benchHost (disk : Disk) (tokens : Nat) : Host :=
  ⟨disk, .outsideRepository, "now", standardHolder, tokens⟩

def benchTarget : Target :=
  .located ["bench", "saved.json"]

/-- The lock that a host with so many tokens takes. -/
def benchLock (number : Nat) : Lock :=
  ⟨benchTarget, (benchHost benchDisk number).token⟩

theorem reaches_bench {disk : Disk} {number : Nat} {last name : String}
    (made : (disk.ensureDirectory (Target.located ["bench", last]).lock.directories).1 = .ok ())
    (found : disk.slot .exists (Target.located ["bench", last]).lock.route = .ok (["bench"], name))
    (unused : disk.find? ["bench", name ++ ".stale-" ++ (benchHost disk number).token] = none) :
    Lock.Reaches (.located ["bench", last]) (benchHost disk number) ["bench"] name disk := by
  obtain ⟨_, _, _, stands, _⟩ := Disk.leads_of_slot found
  have named : ∀ part ∈ ["bench"], IsName part := by decide
  have still : (disk.ensureDirectory (Target.located ["bench", last]).lock.directories).2 = disk :=
    Disk.ensureDirectory_of_stands named (Disk.linkFree_of_stands stands rfl) stands
  exact ⟨Prod.ext made still, found, unused⟩

/-- A lock grows old, another holder takes it over, and the first one comes to give it back. -/
theorem one_holder_at_a_time_taken_over :
    let taken := (Lock.acquire benchTarget 0 (benchHost benchDisk 0)).2.disk
    let aged := taken.put ["bench"] "saved.json.lock" (.file (benchLock 0).token.toUTF8 1000)
    let retaken := (Lock.acquire benchTarget 0 (benchHost aged 1)).2.disk
    (∀ link, benchDisk.find? ["bench", "saved.json.lock"] ≠ some (.link link)) ∧
      Relation.ReflTransGen (Move ["bench"] "saved.json.lock") ⟨benchDisk, [], []⟩
        ⟨retaken, [benchLock 1, benchLock 0], [(benchLock 1).token, (benchLock 0).token]⟩ ∧
      (benchLock 1).isHeld retaken = true ∧ (benchLock 0).drop retaken = retaken := by
  intro taken aged retaken
  have plain : ∀ link, benchDisk.find? ["bench", "saved.json.lock"] ≠ some (.link link) := by
    have missing : benchDisk.find? ["bench", "saved.json.lock"] = none := by decide +kernel
    simp [missing]
  have reaches : Lock.Reaches benchTarget (benchHost benchDisk 0) ["bench"] "saved.json.lock" benchDisk :=
    reaches_bench (by decide +kernel) (by decide +kernel) (by decide +kernel)
  have acquired : (Lock.acquire benchTarget 0 (benchHost benchDisk 0)).1.toOption = some (benchLock 0) := by
    decide +kernel
  have stood : taken.find? ["bench", "saved.json.lock"] = some (.file (benchLock 0).token.toUTF8 0) ∧
      taken.find? ["bench"] = some .directory := by
    decide +kernel
  have reachesOld : Lock.Reaches benchTarget (benchHost aged 1) ["bench"] "saved.json.lock" aged :=
    reaches_bench (by decide +kernel) (by decide +kernel) (by decide +kernel)
  have acquiredOld : (Lock.acquire benchTarget 0 (benchHost aged 1)).1.toOption = some (benchLock 1) := by
    decide +kernel
  have held : (benchLock 1).isHeld retaken = true := by decide +kernel
  have fresh : (benchLock 1).token ∉ [(benchLock 0).token] := by decide +kernel
  have takes : Move ["bench"] "saved.json.lock" ⟨benchDisk, [], []⟩
      ⟨taken, [benchLock 0], [(benchLock 0).token]⟩ :=
    .acquire rfl reaches List.not_mem_nil (Action.eq_of_toOption acquired)
  have ages : Move ["bench"] "saved.json.lock" ⟨taken, [benchLock 0], [(benchLock 0).token]⟩
      ⟨aged, [benchLock 0], [(benchLock 0).token]⟩ :=
    .age stood.1 (Disk.becomes_of_put stood.2 (by simp [stood.1]))
  have breaks : Move ["bench"] "saved.json.lock" ⟨aged, [benchLock 0], [(benchLock 0).token]⟩
      ⟨retaken, [benchLock 1, benchLock 0], [(benchHost aged 1).token, (benchLock 0).token]⟩ :=
    .acquire rfl reachesOld fresh (Action.eq_of_toOption acquiredOld)
  have run := ((Relation.ReflTransGen.single takes).tail ages).tail breaks
  obtain ⟨_, _, _, spares, _⟩ := one_holder_at_a_time rfl plain run
  refine ⟨plain, run, held, spares (benchLock 0) (by simp) (benchLock 1) (by simp) ?_ held⟩
  intro same
  exact fresh (by simp [same])

/-- A name so long that the name under which its stale lock would be set aside is too long. -/
def benchName : String :=
  String.ofList (List.replicate 225 'a')

/-- A directory with a lock of that name that a process left behind. -/
def crampedDisk : Disk :=
  benchDisk.put ["bench"] (benchName ++ ".lock") (.file "one".toUTF8 1000)

theorem reaches_cramped :
    Lock.Reaches (.located ["bench", benchName]) (benchHost crampedDisk 0) ["bench"] (benchName ++ ".lock")
      crampedDisk := by
  have stands : crampedDisk.find? ["bench"] = some .directory := by decide +kernel
  have walked : crampedDisk.walkTo true Disk.linkLimit crampedDisk.start ["bench"] =
      .ok (["bench"], Disk.linkLimit) := by
    decide +kernel
  have short : (benchName ++ ".lock").utf8ByteSize = 230 := by decide +kernel
  have clean : Disk.checkPath (Location.path ["bench", benchName ++ ".lock"]) = .ok () := by
    have text : (Location.path ["bench", benchName ++ ".lock"]).text =
        "/bench/" ++ (benchName ++ ".lock") := by
      simp [Location.path, String.intercalate_cons_of_ne_nil, ← String.append_assoc]
    refine Disk.checkPath_eq_ok_iff.2 ⟨?_, ?_, ?_⟩
    · have plain : Char.ofNat 0 ∉ benchName.toList := by
        intro member
        have same := List.eq_of_mem_replicate (String.toList_ofList ▸ member)
        revert same
        decide
      rw [text, String.toList_append, String.toList_append, List.mem_append, List.mem_append]
      simp [plain]
    · simp [text]
    · rw [text, String.utf8ByteSize_append, short]
      decide
  have plain : benchName ++ ".lock" ≠ "." ∧ benchName ++ ".lock" ≠ ".." := by
    constructor
    all_goals
      intro same
      rw [same] at short
      revert short
      decide
  have found : crampedDisk.slot .exists (Target.located ["bench", benchName]).lock.route =
      .ok (["bench"], benchName ++ ".lock") :=
    Disk.slot_eq_ok_iff.2 ⟨clean, _, _, rfl, walked, stands, plain⟩
  exact reaches_bench (by decide +kernel) found (by decide +kernel)

/-- The stale lock is not broken. -/
theorem acquire_leaves_stale :
    crampedDisk.find? ["bench", benchName ++ ".lock"] = some (.file "one".toUTF8 1000) ∧
      String.fromUTF8? "one".toUTF8 = some "one" ∧ staleAge ≤ 1000 ∧
      (Lock.acquire (.located ["bench", benchName]) 50 (benchHost crampedDisk 0)).1 =
        .error (.locked (benchName ++ ".lock") 50) := by
  have stands : crampedDisk.find? ["bench", benchName ++ ".lock"] = some (.file "one".toUTF8 1000) := by
    decide +kernel
  have long : Disk.nameLimit <
      (benchName ++ ".lock" ++ ".stale-" ++ (benchHost crampedDisk 0).token).utf8ByteSize := by
    decide +kernel
  refine ⟨stands, fromUTF8?_toUTF8 "one", by decide, ?_⟩
  refine Lock.acquire_of_held reaches_cramped ?_ 50 stands ?_
  · intro link
    rw [show (benchHost crampedDisk 0).disk = crampedDisk from rfl]
    simp [stands]
  · intro obtainable
    cases obtainable with
    | free missing => cases stands.symm.trans missing
    | stale _ _ _ short => exact absurd short (Nat.not_le.2 long)

end Tenancy

end SourceBaseline
