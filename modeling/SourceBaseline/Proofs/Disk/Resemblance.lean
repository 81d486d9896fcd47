import SourceBaseline.Proofs.Disk.Ways

/-!
# Disks with other files

A walk looks at directories and links, and at files only in last place. So on a disk that retains
what stands on another, whatever its files hold, a walk comes to the same, unless it ends at a file
that was lost.
-/

set_option autoImplicit false

namespace SourceBaseline.Disk

variable {lost : Location → Prop} {before after : Disk}

/-- What stands on the first disk stands on the second, where files may have other content and a file
that was lost may be anything. -/
def Retains (lost : Location → Prop) (before after : Disk) : Prop :=
  ∀ location entry, before.find? location = some entry →
    after.find? location = some entry ∨ ∃ content age, entry = .file content age ∧
      (lost location ∨ ∃ other otherAge, after.find? location = some (.file other otherAge))

/-- The second walk comes to what the first comes to, unless that finds nothing or comes to a file that
was lost. -/
inductive Repeats (lost : Location → Prop) :
    Except Fault (Location × Nat) → Except Fault (Location × Nat) → Prop where
  | same {walked} : Repeats lost walked walked
  | missing {walked} : Repeats lost (.error .notFound) walked
  | blocked {place walked} : lost place → Repeats lost (.error .notDirectory) walked
  | ended {place left walked} : lost place → Repeats lost (.ok (place, left)) walked

theorem Retains.proceed {followLast : Bool} {links : Nat} {here there : Cursor} {names : List String}
    {onLink onLinkToo : Cursor → List String → Except Fault (Location × Nat)}
    (retains : Retains lost before after)
    (hop : ∀ {here there : Cursor} {names : List String}, Cursor.Reached before.tree here →
      Cursor.Reached after.tree there → here.location = there.location →
      Repeats lost (onLink here names) (onLinkToo there names))
    (reached : Cursor.Reached before.tree here) (reachedToo : Cursor.Reached after.tree there)
    (same : here.location = there.location) :
    Repeats lost (before.proceed followLast (·, links) onLink here names)
      (after.proceed followLast (·, links) onLinkToo there names) := by
  induction names generalizing here there with
  | nil =>
      rw [Disk.proceed, Disk.proceed, same]
      exact .same
  | cons name rest ih =>
      by_cases isHere : name = "."
      · rw [isHere, proceed_here, proceed_here]
        exact ih reached reachedToo same
      by_cases isUp : name = ".."
      · rw [isUp, proceed_up, proceed_up]
        apply ih reached.up reachedToo.up
        rw [Cursor.location_up, Cursor.location_up, same]
      rw [Disk.proceed, Disk.proceed, if_neg isHere, if_neg isHere, if_neg isUp, if_neg isUp]
      by_cases long : nameLimit < name.utf8ByteSize
      · rw [if_pos long, if_pos long]
        exact .same
      rw [if_neg long, if_neg long]
      have entry := reached.standing? name
      cases inside : here.tree.child? name with
      | none => exact .missing
      | some node =>
          rw [inside] at entry
          rcases retains _ _ entry with kept | ⟨content, age, file, kept⟩
          · rw [same] at kept
            cases node with
            | directory inner =>
                obtain ⟨innerToo, insideToo⟩ := child?_of_directory reachedToo kept
                rw [insideToo]
                apply ih (reached.down inside) (reachedToo.down insideToo)
                rw [Cursor.location_down, Cursor.location_down, same]
            | file content age =>
                rw [child?_of_file reachedToo kept, same]
                exact .same
            | link target =>
                rw [child?_of_link reachedToo kept]
                dsimp only
                split
                next =>
                  rw [same]
                  exact .same
                next =>
                  cases absolute : target.isAbsolute with
                  | true => exact hop .top .top rfl
                  | false => exact hop reached reachedToo same
          · -- A file can only end the walk, so it matters alone whether one stands there still.
            obtain rfl : node = .file content age := by
              cases node <;> cases file
              rfl
            dsimp only
            rcases kept with gone | ⟨other, otherAge, kept⟩
            · split
              next => exact .ended gone
              next => exact .blocked gone
            · rw [same] at kept ⊢
              rw [child?_of_file reachedToo kept]
              exact .same

theorem Retains.walkTo {followLast : Bool} {links : Nat} {here there : Cursor} {names : List String}
    (retains : Retains lost before after) (reached : Cursor.Reached before.tree here)
    (reachedToo : Cursor.Reached after.tree there) (same : here.location = there.location) :
    Repeats lost (before.walkTo followLast links here names)
      (after.walkTo followLast links there names) := by
  induction links generalizing here there names with
  | zero => exact retains.proceed (fun _ _ _ => .same) reached reachedToo same
  | succ links ih => exact retains.proceed ih reached reachedToo same

/-- A route goes on leading where it led if no file that was lost stands there. -/
theorem Retains.locate {route : Route} {place : Location} (retains : Retains lost before after)
    (located : before.locate route = .ok place) (kept : ¬ lost place) :
    after.locate route = .ok place := by
  obtain ⟨_, clean, found⟩ := bind_eq_ok_iff.1 located
  obtain ⟨⟨reached, left⟩, walked, ends⟩ := bind_eq_ok_iff.1 found
  cases ends
  have repeats : Repeats lost (before.walkTo true linkLimit before.start route.names)
      (after.walkTo true linkLimit after.start route.names) := retains.walkTo .top .top rfl
  rw [walked] at repeats
  generalize walkedToo : after.walkTo true linkLimit after.start route.names = result at repeats
  cases repeats with
  | same =>
      unfold Disk.locate
      rw [clean, walkedToo]
      rfl
  | ended gone => exact absurd gone kept

end SourceBaseline.Disk
