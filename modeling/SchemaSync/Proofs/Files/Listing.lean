import SchemaSync.Proofs.Files.Tree

/-! What a directory holds: every entry of it is listed once, in the order of the names. -/

namespace SchemaSync

theorem Path.utf8ByteSize_child_le {name : String} (plain : IsPlain name) (p : Path) :
    (p.child name).toString.utf8ByteSize ≤ p.toString.utf8ByteSize + 1 + name.utf8ByteSize := by
  have slash : "/".utf8ByteSize = 1 := rfl
  have joined : (p.child name).toString = p.anchor ++ String.intercalate "/" (p.parts ++ [name]) := by
    rw [child_plain plain, Path.toString, if_neg (by simp)]
  rw [joined, String.utf8ByteSize_append]
  cases parts : p.parts with
  | nil =>
    have anchor : p.anchor.utf8ByteSize ≤ p.toString.utf8ByteSize := by
      rw [Path.toString, parts]
      split
      · next relative => simp_all
      · rw [String.utf8ByteSize_append]
        omega
    rw [List.nil_append, String.intercalate_singleton]
    omega
  | cons part rest =>
    have whole : p.toString = p.anchor ++ String.intercalate "/" (part :: rest) := by
      rw [Path.toString, parts, if_neg (by simp)]
    rw [whole, String.utf8ByteSize_append, String.intercalate_append_of_ne_nil (List.cons_ne_nil _ _)
      (List.cons_ne_nil _ _), String.utf8ByteSize_append, String.utf8ByteSize_append,
      String.intercalate_singleton, slash]
    omega

instance (name : String) : Decidable (Path.IsPlain name) :=
  decidable_of_iff ('/' ∉ name.toList ∧ name ≠ "" ∧ name ≠ "." ∧ name ≠ ".." ∧ '\x00' ∉ name.toList ∧
      name.utf8ByteSize ≤ Tree.maxNameBytes)
    ⟨fun ⟨single, given, below, above, whole, short⟩ => ⟨single, given, below, above, whole, short⟩,
      fun ⟨single, given, below, above, whole, short⟩ => ⟨single, given, below, above, whole, short⟩⟩

namespace Tree

/-- A tree as on a disk: nothing stands at one place twice, and each name is one that a file or a directory can have. -/
structure Sound (t : Tree) : Prop where
  distinct : (t.entries.map Prod.fst).Nodup
  plain : ∀ entry ∈ t.entries, ∀ name ∈ entry.1, Path.IsPlain name

instance (t : Tree) : Decidable t.Sound :=
  decidable_of_iff ((t.entries.map Prod.fst).Nodup ∧ ∀ entry ∈ t.entries, ∀ name ∈ entry.1, Path.IsPlain name)
    ⟨fun ⟨distinct, plain⟩ => ⟨distinct, plain⟩, fun ⟨distinct, plain⟩ => ⟨distinct, plain⟩⟩

/-- A path leads to a directory that is not locked and holds something under a name. -/
def Contains (t : Tree) (directory : Path) (name : String) (node : Node) : Prop :=
  ∃ place, t.locate directory = .ok place ∧ t.find? place = some .directory ∧ t.find? (place ++ [name]) = some node

variable {t : Tree} {place : Location} {name : String} {node : Node} {directory : Path}

private theorem below_iff {place key : Location} :
    (if key.dropLast == place then key.getLast? else none) = some name ↔ key = place ++ [name] := by
  constructor
  · intro last
    split at last
    · next same =>
      obtain ⟨front, rfl⟩ := List.getLast?_eq_some_iff.mp last
      rw [List.dropLast_concat, beq_iff_eq] at same
      rw [same]
    · cases last
  · rintro rfl
    rw [List.dropLast_concat, List.getLast?_concat, if_pos (beq_self_eq_true place)]

theorem mem_names_iff : name ∈ t.names place ↔ ∃ node, t.find? (place ++ [name]) = some node := by
  have given : ¬(place ++ [name]).isEmpty = true := by simp
  rw [names, List.mem_mergeSort, List.mem_filterMap, ← Option.isSome_iff_exists, find?, if_neg given,
    List.lookup_isSome_iff]
  refine exists_congr fun entry => and_congr_right fun _ => ?_
  rw [below_iff, beq_iff_eq, eq_comm]

theorem find?_mem (found : t.find? (place ++ [name]) = some node) : (place ++ [name], node) ∈ t.entries := by
  rw [find?, if_neg (by simp)] at found
  obtain ⟨front, back, same, _⟩ := List.lookup_eq_some_iff.mp found
  rw [same]
  exact List.mem_append_right _ List.mem_cons_self

section Order

private theorem nameLe_iff {first second : String} : nameLe first second = true ↔ first ≤ second := by
  rw [nameLe, Bool.not_eq_true', decide_eq_false_iff_not, String.not_lt]

/-- Names that are in order, each of them once, increase. -/
theorem Sound.names_increase (sound : t.Sound) (place : Location) : (t.names place).Pairwise (· < ·) := by
  have trans (first second third : String) (one : nameLe first second = true) (two : nameLe second third = true) :
      nameLe first third = true := nameLe_iff.mpr (String.le_trans (nameLe_iff.mp one) (nameLe_iff.mp two))
  have total (first second : String) : (nameLe first second || nameLe second first) = true :=
    Bool.or_eq_true_iff.mpr ((String.le_total first second).imp nameLe_iff.mpr nameLe_iff.mpr)
  have ordered := List.pairwise_mergeSort trans total (namesIn t.entries place)
  have distinct : (t.names place).Nodup := by
    refine (List.mergeSort_perm _ nameLe).nodup_iff.mpr ?_
    refine List.Pairwise.filterMap _ (fun one two apart first onePlace second twoPlace same => apart ?_)
      (List.pairwise_map.mp sound.distinct)
    rw [below_iff.mp onePlace, below_iff.mp twoPlace, same]
  refine List.Pairwise.imp₂ (fun first second before other => ?_) ordered distinct
  rw [← String.not_le]
  exact fun back => other (String.le_antisymm (nameLe_iff.mp before) back)

end Order

theorem locate_child_long (located : t.locate directory = .ok place) (plain : Path.IsPlain name)
    (long : maxPathBytes < (directory.child name).toString.utf8ByteSize) :
    t.locate (directory.child name) = .error .nameTooLong := by
  have parts : (directory.child name).parts.any (·.toList.contains '\x00') = false := by
    rw [Path.child_plain plain, List.any_append, (locate_eq_ok_iff.mp located).1, Bool.false_or, List.any_cons,
      List.any_nil, Bool.or_false]
    simpa using plain.whole
  rw [locate, parts, if_neg Bool.false_ne_true, if_pos long]

theorem unlocked_of_inside (inside : t.find? place = some .directory) : t.find? place ≠ some .lockedDirectory := by
  rw [inside]
  nofun

theorem children_locked (located : t.locate directory = .ok place)
    (locked : t.find? place = some .lockedDirectory) : t.children directory = [] := by
  rw [children, located]
  dsimp only
  rw [if_pos locked]

namespace Sound

variable (sound : t.Sound)
include sound

theorem isPlain (found : t.find? (place ++ [name]) = some node) : Path.IsPlain name :=
  sound.plain _ (find?_mem found) name (List.mem_append_right _ (List.mem_singleton_self name))

theorem isPlain_of_contains (contains : t.Contains directory name node) : Path.IsPlain name :=
  have ⟨_, _, _, found⟩ := contains
  sound.isPlain found

theorem children_eq (located : t.locate directory = .ok place) (unlocked : t.find? place ≠ some .lockedDirectory) :
    t.children directory = (t.names place).map directory.child := by
  rw [children, located]
  dsimp only
  rw [if_neg unlocked]
  refine List.map_congr_left fun name member => ?_
  obtain ⟨node, found⟩ := mem_names_iff.mp member
  rw [Path.child_plain (sound.isPlain found)]

theorem lookup_child (contains : t.Contains directory name node) : t.lookup (directory.child name) =
    if (directory.child name).toString.utf8ByteSize ≤ maxPathBytes then .ok node else .error .nameTooLong := by
  have plain := sound.isPlain_of_contains contains
  obtain ⟨place, located, inside, found⟩ := contains
  split
  · next short => exact lookup_eq_of_find? (locate_child located inside plain short) found
  · next long =>
    rw [lookup, locate_child_long located plain (Nat.not_le.mp long)]
    rfl

end Sound

end Tree

end SchemaSync
