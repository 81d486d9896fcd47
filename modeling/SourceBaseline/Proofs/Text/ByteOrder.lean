import SourceBaseline.Proofs.Path

/-!
# Names by their bytes

Texts are compared character by character, paths on a disk byte by byte. UTF-8 keeps the order of
characters, so names that stand in order do so by their bytes as well.
-/

set_option autoImplicit false

namespace SourceBaseline

namespace Text

theorem ofNat_cons_lt {small great : Nat} {left right : List UInt8} (byte : great < 256)
    (less : small ≤ great) (later : small = great → left < right) :
    UInt8.ofNat small :: left < UInt8.ofNat great :: right := by
  rw [List.cons_lt_cons_iff]
  rcases Nat.lt_or_eq_of_le less with smaller | rfl
  · refine .inl (UInt8.lt_iff_toNat_lt.2 ?_)
    rwa [UInt8.toNat_ofNat_of_lt' (Nat.lt_trans smaller byte), UInt8.toNat_ofNat_of_lt' byte]
  · exact .inr ⟨rfl, later rfl⟩

/-- The bytes of a smaller character are smaller at the first place where they differ, whatever
follows: a longer encoding starts with a greater byte, and encodings of one length hold the digits of
their characters, the most significant first. -/
theorem utf8EncodeChar_append_lt {first second : Char} (less : first < second)
    (left right : List UInt8) :
    String.utf8EncodeChar first ++ left < String.utf8EncodeChar second ++ right := by
  have smaller : first.val.toNat < second.val.toNat := less
  have bound : second.val.toNat < 0x110000 := by
    rcases second.valid with low | ⟨_, high⟩
    · omega
    · exact high
  unfold String.utf8EncodeChar
  generalize first.val.toNat = small at *
  generalize second.val.toNat = great at *
  dsimp only
  repeat' split
  all_goals try omega
  all_goals simp only [List.cons_append, List.nil_append]
  all_goals repeat refine ofNat_cons_lt (by omega) (by omega) fun _ => ?_
  all_goals omega

theorem flatMap_utf8EncodeChar_lt {left right : List Char} (less : left < right) :
    left.flatMap String.utf8EncodeChar < right.flatMap String.utf8EncodeChar := by
  induction less with
  | @nil char rest =>
      have nonempty : (char :: rest).flatMap String.utf8EncodeChar ≠ [] := by
        intro empty
        have none := congrArg List.length empty
        have some := char.utf8Size_pos
        simp at none
        omega
      obtain ⟨byte, more, bytes⟩ := List.exists_cons_of_ne_nil nonempty
      rw [bytes]
      exact List.nil_lt_cons byte more
  | rel smaller => exact utf8EncodeChar_append_lt smaller _ _
  | @cons char _ _ _ ih => exact List.append_left_lt ih

end Text

/-- The bytes of a path, name by name. -/
def Path.nameBytes (relative : String) : List (List UInt8) :=
  (Text.pieces '/' relative.toList).map fun name => name.flatMap String.utf8EncodeChar

theorem Path.nameBytes_lt {first second : List String} (named : ∀ name ∈ first, IsName name)
    (namedToo : ∀ name ∈ second, IsName name) (inner : first ≠ []) (less : first < second) :
    nameBytes ("/".intercalate first) < nameBytes ("/".intercalate second) := by
  have innerToo : second ≠ [] := by
    rintro rfl
    exact List.not_lt_nil first less
  unfold nameBytes
  rw [Location.pieces_intercalate named inner, Location.pieces_intercalate namedToo innerToo,
    List.map_map, List.map_map]
  clear named namedToo inner innerToo
  induction less with
  | nil => exact List.nil_lt_cons _ _
  | rel smaller =>
      exact List.cons_lt_cons_iff.2 (.inl (Text.flatMap_utf8EncodeChar_lt smaller))
  | cons _ ih => exact List.cons_lt_cons_iff.2 (.inr ⟨rfl, ih⟩)

end SourceBaseline
