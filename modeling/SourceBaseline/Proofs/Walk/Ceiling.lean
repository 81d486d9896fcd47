import SourceBaseline.Proofs.Walk.Enumeration

/-!
# The ceiling of a walk

A walk hands out one item at a time and can be asked again after it has failed or come to its end.
`answer_eq` says that the answers, one call after the other, are the items of the walk.
`ceiling_exact` says what these are: of all files that are listed those below the ceiling, and then
one error if there are more.
-/

set_option autoImplicit false

namespace SourceBaseline.Walk

variable {walk : Walk} {disk : Disk} {deadline : Deadline} {count call : Nat}
  {entries : List (List String × Entry)} {files : List TrackedFile}

/-! ## One call after the other -/

/-- Where a walk stands between two calls: the entries that are left, the files that were counted,
and whether it has failed. -/
structure Progress where
  left : List (List String × Entry)
  count : Nat
  failed : Bool

/-- Go past entries up to the next item, or to the end. -/
def advance (walk : Walk) (disk : Disk) (deadline : Deadline) (count : Nat) :
    List (List String × Entry) → Option (Outcome TrackedFile) × Progress
  | [] =>
      match deadline.check with
      | .error error => (some (.error error), ⟨[], count, true⟩)
      | .ok () => (none, ⟨[], count, false⟩)
  | (names, entry) :: rest =>
      match deadline.check with
      | .error error => (some (.error error), ⟨(names, entry) :: rest, count, true⟩)
      | .ok () =>
          if entry = .directory then
            if walk.exclude.isExcluded (relativePath names) then
              advance walk disk deadline count (rest.dropWhile fun other => names.isPrefixOf other.1)
            else advance walk disk deadline count rest
          else
            match walk.tracked? disk names entry with
            | none => advance walk disk deadline count rest
            | some file =>
                if walk.ceiling ≤ count then
                  (some (.error (fileLimitError walk.ceiling)), ⟨rest, count, true⟩)
                else (some (.ok file), ⟨rest, count + 1, false⟩)
termination_by entries => entries.length
decreasing_by
  all_goals simp only [List.length_cons]
  all_goals first
    | omega
    | exact Nat.lt_succ_of_le (List.dropWhile_sublist _).length_le

/-- Ask for the next item. A walk that has failed has none. -/
def next (walk : Walk) (disk : Disk) (deadline : Deadline) (progress : Progress) :
    Option (Outcome TrackedFile) × Progress :=
  if progress.failed then (none, progress)
  else walk.advance disk deadline progress.count progress.left

/-- Before the first call. -/
def beginning (walk : Walk) (disk : Disk) : Progress :=
  ⟨disk.below walk.boundary.root, 0, false⟩

/-- What a call answers after that many other calls. -/
def answer (walk : Walk) (disk : Disk) (deadline : Deadline) :
    Nat → Progress → Option (Outcome TrackedFile)
  | 0, progress => (walk.next disk deadline progress).1
  | calls + 1, progress => walk.answer disk deadline calls (walk.next disk deadline progress).2

/-- The items that are still to come. -/
def pending (walk : Walk) (disk : Disk) (deadline : Deadline) (progress : Progress) :
    List (Outcome TrackedFile) :=
  if progress.failed then [] else walk.visit disk deadline progress.count progress.left

/-- The next item is the first of those to come, and the others are still to come. -/
def Takes (walk : Walk) (disk : Disk) (deadline : Deadline) (items : List (Outcome TrackedFile))
    (found : Option (Outcome TrackedFile) × Progress) : Prop :=
  found.1 = items.head? ∧ walk.pending disk deadline found.2 = items.tail

theorem takes_advance :
    walk.Takes disk deadline (walk.visit disk deadline count entries)
      (walk.advance disk deadline count entries) := by
  fun_induction visit walk disk deadline count entries with
  | case1 count error expired =>
      rw [advance, expired]
      exact ⟨rfl, rfl⟩
  | case2 count running =>
      rw [advance, running]
      refine ⟨rfl, ?_⟩
      simp [pending, visit, running]
  | case3 count names entry rest error expired =>
      rw [advance, expired]
      exact ⟨rfl, rfl⟩
  | case4 count names rest running excluded ih =>
      rw [advance, running]
      simpa only [if_pos, excluded] using ih
  | case5 count names rest running kept ih =>
      rw [advance, running]
      simpa only [kept, if_true, Bool.false_eq_true, if_false] using ih
  | case6 count names entry rest running leaf untracked ih =>
      rw [advance, running]
      simpa only [if_neg leaf, untracked] using ih
  | case7 count names entry rest running leaf file tracked full =>
      rw [advance, running]
      simp only [if_neg leaf, tracked, if_pos full]
      exact ⟨rfl, rfl⟩
  | case8 count names entry rest running leaf file tracked within ih =>
      rw [advance, running]
      simp only [if_neg leaf, tracked, if_neg within]
      exact ⟨rfl, rfl⟩

theorem takes_next (progress : Progress) :
    walk.Takes disk deadline (walk.pending disk deadline progress)
      (walk.next disk deadline progress) := by
  unfold next
  by_cases failed : progress.failed = true
  · rw [if_pos failed]
    simp [Takes, pending, failed]
  · rw [if_neg failed, pending, if_neg failed]
    exact takes_advance

/-- The answers from some point on are the items that are still to come there, and nothing after
the last of them. -/
theorem answer_eq_getElem? (progress : Progress) :
    walk.answer disk deadline call progress = (walk.pending disk deadline progress)[call]? := by
  induction call generalizing progress with
  | zero =>
      have takes : walk.Takes disk deadline _ _ := takes_next progress
      obtain ⟨first, _⟩ := takes
      rw [answer, first, List.head?_eq_getElem?]
  | succ calls ih =>
      have takes : walk.Takes disk deadline _ _ := takes_next progress
      obtain ⟨_, later⟩ := takes
      rw [answer, ih, later, List.getElem?_tail]

theorem answer_eq : walk.answer disk deadline call (walk.beginning disk) =
    (walk.items disk deadline)[call]? :=
  answer_eq_getElem? (walk.beginning disk)

/-! ## Up to the ceiling -/

/-- Files are handed out up to the ceiling; one more makes an error, and the last item. -/
theorem report_eq (room : count ≤ walk.ceiling) :
    walk.report count files =
      (files.take (walk.ceiling - count)).map .ok ++
        if walk.ceiling < count + files.length then [.error (fileLimitError walk.ceiling)] else [] := by
  induction files generalizing count with
  | nil => simp [report, Nat.not_lt.2 room]
  | cons file rest ih =>
      rw [report]
      by_cases full : walk.ceiling ≤ count
      · have none : walk.ceiling - count = 0 := by omega
        rw [if_pos full, if_pos (by rw [List.length_cons]; omega), none]
        rfl
      · have some : walk.ceiling - count = (walk.ceiling - (count + 1)) + 1 := by omega
        rw [if_neg full, ih (by omega), some, List.take_succ_cons, List.map_cons, List.length_cons,
          List.cons_append]
        congr 3
        simp only [Nat.add_assoc, Nat.add_comm 1]

theorem items_eq (running : deadline.isExpired = false) :
    walk.items disk deadline =
      ((walk.listed disk).take walk.ceiling).map .ok ++
        if walk.ceiling < (walk.listed disk).length then [.error (fileLimitError walk.ceiling)]
        else [] := by
  rw [items, visit_eq running ahead_below, ← listed, report_eq (Nat.zero_le _), Nat.sub_zero,
    Nat.zero_add]

theorem accepted_of_mem_listed {file : TrackedFile} (member : file ∈ walk.listed disk) :
    ∃ names, names ≠ [] ∧ walk.Keeps names ∧ file.relative = relativePath names ∧
      walk.boundary.validate disk (Location.path (walk.boundary.root ++ names)) =
        .ok file.absolute := by
  obtain ⟨names, entry, kept, tracked⟩ := mem_listed_iff_kept.1 member
  obtain ⟨inner, _, _, keeps⟩ := mem_kept_iff.1 kept
  exact ⟨names, inner, keeps, relative_of_tracked? tracked, (validate_of_tracked? tracked).2⟩

/-- A walk in time counts the files that it would list without a ceiling, and nothing else: entries
that are excluded or refused do not count. If the ceiling has room for all of them, they are what it
lists. Otherwise it fails, and its answers are the files up to the ceiling, one error, and nothing
after that, however often it is asked again. -/
theorem ceiling_exact (running : deadline.isExpired = false) :
    (∀ ceiling, (walk.listed disk).length ≤ ceiling →
      Walk.items { walk with ceiling } disk deadline = (walk.listed disk).map .ok) ∧
    (∀ file ∈ walk.listed disk, ∃ names, names ≠ [] ∧ walk.Keeps names ∧
      file.relative = relativePath names ∧
      walk.boundary.validate disk (Location.path (walk.boundary.root ++ names)) =
        .ok file.absolute) ∧
    ((walk.listed disk).length ≤ walk.ceiling →
      walk.enumerate disk deadline = .ok (walk.listed disk) ∧
      ∀ call, walk.answer disk deadline call (walk.beginning disk) =
        ((walk.listed disk)[call]?).map .ok) ∧
    (walk.ceiling < (walk.listed disk).length →
      walk.enumerate disk deadline = .error (fileLimitError walk.ceiling) ∧
      (∀ call < walk.ceiling, ∃ file, (walk.listed disk)[call]? = some file ∧
        walk.answer disk deadline call (walk.beginning disk) = some (.ok file)) ∧
      walk.answer disk deadline walk.ceiling (walk.beginning disk) =
        some (.error (fileLimitError walk.ceiling)) ∧
      ∀ call, walk.ceiling < call →
        walk.answer disk deadline call (walk.beginning disk) = none) := by
  have checked : deadline.check = .ok () := by simp [Deadline.check, running]
  refine ⟨?_, fun file member => accepted_of_mem_listed member, ?_, ?_⟩
  · intro ceiling room
    have same : Walk.listed { walk with ceiling } disk = walk.listed disk := rfl
    rw [items_eq running, same, List.take_of_length_le room, if_neg (Nat.not_lt.2 room),
      List.append_nil]
  · intro room
    refine ⟨?_, fun call => ?_⟩
    · rw [enumerate_eq, checked, if_neg (Nat.not_lt.2 room)]
      rfl
    · rw [answer_eq, items_eq running, List.take_of_length_le room, if_neg (Nat.not_lt.2 room),
        List.append_nil, List.getElem?_map]
  · intro more
    have handed : (((walk.listed disk).take walk.ceiling).map
        (Except.ok : TrackedFile → Outcome TrackedFile)).length = walk.ceiling := by
      rw [List.length_map, List.length_take, Nat.min_eq_left (Nat.le_of_lt more)]
    refine ⟨?_, ?_, ?_, ?_⟩
    · rw [enumerate_eq, checked, if_pos more]
      rfl
    · intro call within
      have inside : call < (walk.listed disk).length := Nat.lt_trans within more
      refine ⟨(walk.listed disk)[call], List.getElem?_eq_getElem inside, ?_⟩
      rw [answer_eq, items_eq running, List.getElem?_append_left (by rwa [handed]),
        List.getElem?_map, List.getElem?_take_of_lt within, List.getElem?_eq_getElem inside]
      rfl
    · rw [answer_eq, items_eq running, if_pos more,
        List.getElem?_append_right (Nat.le_of_eq handed), handed, Nat.sub_self]
      rfl
    · intro call beyond
      rw [answer_eq, items_eq running, if_pos more, List.getElem?_eq_none]
      rw [List.length_append, handed, List.length_singleton]
      exact beyond

/-- The walk with room for one file of the two. -/
def crowdedWalk : Walk := { mixedWalk with ceiling := 1 }

theorem ceiling_exact_crowded :
    let deadline := Deadline.start "walk" none
    let answer := fun call => crowdedWalk.answer mixedDisk deadline call (crowdedWalk.beginning mixedDisk)
    deadline.isExpired = false ∧
      crowdedWalk.enumerate mixedDisk deadline = .error (fileLimitError 1) ∧
      (∃ file, (crowdedWalk.listed mixedDisk)[0]? = some file ∧ answer 0 = some (.ok file)) ∧
      answer 1 = some (.error (fileLimitError 1)) ∧ ∀ call, 1 < call → answer call = none := by
  intro deadline answer
  have running : deadline.isExpired = false := rfl
  have more : crowdedWalk.ceiling < (crowdedWalk.listed mixedDisk).length := by decide +kernel
  obtain ⟨_, _, _, crowded⟩ := @ceiling_exact crowdedWalk mixedDisk deadline running
  obtain ⟨failed, handed, refused, ended⟩ := crowded more
  exact ⟨running, failed, handed 0 (by decide), refused, ended⟩

end SourceBaseline.Walk
