import SchemaSync.Files.Tree

/-! What stays of a tree when entries are added to it, and where the paths of new directories lead. -/

namespace SchemaSync

namespace Path

theorem ofString_plain {s : String} (plain : '/' ∉ s.toList) (given : s ≠ "") (other : s ≠ ".") :
    ofString s = ⟨"", [s]⟩ := by
  have pieces (cs : List Char) (plain : '/' ∉ cs) : Text.piecesAt '/' cs = [cs] := by
    induction cs with
    | nil => rfl
    | cons c rest ih =>
      rw [List.mem_cons, not_or] at plain
      rw [Text.piecesAt, ih plain.2]
      exact if_neg (by simpa using Ne.symm plain.1)
  have anchor : anchorOf s.toList = "" := by
    cases start : s.toList with
    | nil => rfl
    | cons c rest =>
      rw [start, List.mem_cons, not_or] at plain
      rw [anchorOf] <;> (rintro more ⟨⟩; exact plain.1 rfl)
  rw [ofString, anchor, pieces _ plain, List.map_singleton, String.ofList_toList]
  simp [given, other]

structure IsPlain (name : String) : Prop where
  single : '/' ∉ name.toList
  given : name ≠ ""
  below : name ≠ "."
  above : name ≠ ".."
  whole : '\x00' ∉ name.toList
  short : name.utf8ByteSize ≤ Tree.maxNameBytes

theorem child_plain {name : String} (plain : IsPlain name) (p : Path) :
    p.child name = { p with parts := p.parts ++ [name] } := by
  rw [child, ofString_plain plain.single plain.given plain.below]
  rfl

end Path

namespace Tree

variable {t : Tree}

def extend (t : Tree) (more : List (Location × Node)) : Tree :=
  { t with entries := t.entries ++ more }

@[simp]
theorem extend_nil (t : Tree) : t.extend [] = t := by
  rw [extend, List.append_nil]

@[simp]
theorem extend_extend (t : Tree) (first second : List (Location × Node)) :
    (t.extend first).extend second = t.extend (first ++ second) := by
  simp only [extend, List.append_assoc]

theorem find?_extend (t : Tree) (more : List (Location × Node)) (place : Location) :
    (t.extend more).find? place = (t.find? place).or (more.lookup place) := by
  rw [find?, find?, extend, List.lookup_append]
  split <;> rfl

theorem find?_extend_some {place : Location} {node : Node} (found : t.find? place = some node)
    (more : List (Location × Node)) : (t.extend more).find? place = some node := by
  rw [find?_extend, found, Option.some_or]

theorem put_new {place : Location} (absent : t.find? place = none) (node : Node) :
    t.put place node = t.extend [(place, node)] := by
  rw [find?] at absent
  split at absent
  · cases absent
  · rw [put, if_neg, extend]
    rw [List.any_eq_true]
    rintro ⟨entry, member, same⟩
    have other := List.lookup_eq_none_iff.mp absent entry member
    rw [beq_iff_eq] at same
    rw [same, bne_self_eq_false] at other
    cases other

theorem walk_cons (t : Tree) (place : Location) (part : String) (rest : List String) :
    t.walk place (part :: rest) = (t.walk place [part]).bind fun next => t.walk next rest := by
  rw [walk, walk]
  cases t.find? place with
  | none => rfl
  | some node =>
    cases node with
    | file => rfl
    | lockedDirectory => rfl
    | lockedFile => rfl
    | directory =>
      dsimp only
      split
      · rfl
      · split <;> rfl

theorem walk_append (t : Tree) (place : Location) (parts more : List String) :
    t.walk place (parts ++ more) = (t.walk place parts).bind fun next => t.walk next more := by
  induction parts generalizing place with
  | nil => rfl
  | cons part rest ih =>
    rw [List.cons_append, walk_cons, walk_cons t place part rest]
    cases t.walk place [part] with
    | error => rfl
    | ok next => exact ih next

theorem walk_extend {place target : Location} {parts : List String} (walked : t.walk place parts = .ok target)
    (more : List (Location × Node)) : (t.extend more).walk place parts = .ok target := by
  induction parts generalizing place with
  | nil => exact walked
  | cons part rest ih =>
    have single {next : Location} (step : t.walk place [part] = .ok next) :
        (t.extend more).walk place [part] = .ok next := by
      rw [walk] at step ⊢
      cases found : t.find? place with
      | none =>
        rw [found] at step
        cases step
      | some node =>
        rw [found] at step
        rw [find?_extend_some found]
        exact step
    rw [walk_cons] at walked ⊢
    cases step : t.walk place [part] with
    | error =>
      rw [step] at walked
      cases walked
    | ok next =>
      rw [step] at walked
      rw [single step]
      exact ih walked

/-- A path that can be used at all is followed from where it starts. -/
theorem locate_eq_ok_iff {p : Path} {place : Location} : t.locate p = .ok place ↔
    p.parts.any (·.toList.contains '\x00') = false ∧ p.toString.utf8ByteSize ≤ maxPathBytes ∧
      t.walk (if p.isAbsolute then [] else t.base) p.parts = .ok place := by
  rw [locate]
  split
  · next null =>
    rw [null]
    exact ⟨fun failed => (by cases failed), fun ⟨whole, _⟩ => by cases whole⟩
  · next whole =>
    split
    · next long =>
      exact ⟨fun failed => (by cases failed), fun ⟨_, short, _⟩ => absurd short (Nat.not_le.mpr long)⟩
    · next short =>
      exact ⟨fun walked => ⟨Bool.not_eq_true _ ▸ whole, Nat.not_lt.mp short, walked⟩, fun ⟨_, _, walked⟩ => walked⟩

theorem locate_extend {p : Path} {place : Location} (located : t.locate p = .ok place)
    (more : List (Location × Node)) : (t.extend more).locate p = .ok place := by
  rw [locate_eq_ok_iff] at located ⊢
  exact ⟨located.1, located.2.1, walk_extend located.2.2 more⟩

theorem walk_plain {place : Location} {name : String} (inside : t.find? place = some .directory)
    (plain : Path.IsPlain name) : t.walk place [name] = .ok (place ++ [name]) := by
  rw [walk, inside]
  dsimp only
  rw [if_neg (by simpa using plain.above), if_neg (Nat.not_lt.mpr plain.short), walk]

/-- Where a path leads on to a name. -/
theorem locate_child_eq {p : Path} {place : Location} {name : String} (located : t.locate p = .ok place)
    (plain : Path.IsPlain name) (short : (p.child name).toString.utf8ByteSize ≤ maxPathBytes) :
    t.locate (p.child name) = t.walk place [name] := by
  obtain ⟨whole, _, walked⟩ := locate_eq_ok_iff.mp located
  have parts : (p.child name).parts.any (·.toList.contains '\x00') = false := by
    rw [Path.child_plain plain, List.any_append, whole, Bool.false_or, List.any_cons, List.any_nil, Bool.or_false]
    simpa using plain.whole
  rw [locate, parts, if_neg Bool.false_ne_true, if_neg (Nat.not_lt.mpr short), Path.child_plain plain, walk_append]
  show (t.walk (if p.isAbsolute then [] else t.base) p.parts).bind _ = _
  rw [walked]
  rfl

/-- A name in a directory leads to a place in it, if the whole path is not too long. -/
theorem locate_child {p : Path} {place : Location} {name : String} (located : t.locate p = .ok place)
    (inside : t.find? place = some .directory) (plain : Path.IsPlain name)
    (short : (p.child name).toString.utf8ByteSize ≤ maxPathBytes) :
    t.locate (p.child name) = .ok (place ++ [name]) := by
  rw [locate_child_eq located plain short, walk_plain inside plain]

/-- Nobody gets to a name in a locked directory. -/
theorem locate_child_locked {p : Path} {place : Location} {name : String} (located : t.locate p = .ok place)
    (locked : t.find? place = some .lockedDirectory) (plain : Path.IsPlain name)
    (short : (p.child name).toString.utf8ByteSize ≤ maxPathBytes) : t.locate (p.child name) = .error .denied := by
  rw [locate_child_eq located plain short, walk, locked]

theorem lookup_eq_of_find? {p : Path} {place : Location} {node : Node} (located : t.locate p = .ok place)
    (found : t.find? place = some node) : t.lookup p = .ok node := by
  rw [lookup, located]
  simp only [bind, Except.bind, found]

theorem lookup_eq_of_absent {p : Path} {place : Location} (located : t.locate p = .ok place)
    (absent : t.find? place = none) : t.lookup p = .error .notFound := by
  rw [lookup, located]
  simp only [bind, Except.bind, absent]

theorem isDirectory_eq {p : Path} {place : Location} (located : t.locate p = .ok place) :
    t.isDirectory p = .ok ((t.find? place).any Node.isDirectory) := by
  rw [isDirectory, lookup?]
  cases found : t.find? place with
  | some node =>
    rw [lookup_eq_of_find? located found]
    rfl
  | none =>
    rw [lookup_eq_of_absent located found]
    rfl

theorem isDirectory_of_find? {p : Path} {place : Location} (located : t.locate p = .ok place)
    (inside : t.find? place = some .directory) : t.isDirectory p = .ok true := by
  rw [isDirectory_eq located, inside]
  rfl

theorem isDirectory_of_absent {p : Path} {place : Location} (located : t.locate p = .ok place)
    (absent : t.find? place = none) : t.isDirectory p = .ok false := by
  rw [isDirectory_eq located, absent]
  rfl

/-- A path with a fault leads to no directory that anyone can tell of. -/
theorem isDirectory_of_fault {p : Path} {fault : FileFault} (failed : t.locate p = .error fault) :
    t.isDirectory p = if fault.meansAbsent then .ok false else .error ⟨fault, p.toString⟩ := by
  rw [isDirectory, lookup?, lookup, failed]
  show (if fault.meansAbsent then _ else _) >>= _ = _
  split
  · rfl
  · rfl

theorem locate_of_isDirectory {p : Path} (directory : t.isDirectory p = .ok true) :
    ∃ place, t.locate p = .ok place ∧ (t.find? place).any Node.isDirectory = true := by
  cases located : t.locate p with
  | error fault =>
    rw [isDirectory_of_fault located] at directory
    split at directory <;> cases directory
  | ok place =>
    rw [isDirectory_eq located] at directory
    exact ⟨place, rfl, Except.ok.inj directory⟩

theorem any_isDirectory_iff {place : Location} : (t.find? place).any Node.isDirectory = true ↔
    t.find? place = some .directory ∨ t.find? place = some .lockedDirectory := by
  cases t.find? place with
  | none => simp
  | some node => cases node <;> simp [Node.isDirectory]

section Make

theorem makeDirectory_new {p : Path} {place : Location} (located : t.locate p = .ok place)
    (absent : t.find? place = none) : t.makeDirectory p = .ok (t.extend [(place, .directory)]) := by
  rw [makeDirectory, located]
  dsimp only
  rw [absent, put_new absent]
  rfl

theorem makeDirectory_present {p : Path} {place : Location} {node : Node} (located : t.locate p = .ok place)
    (found : t.find? place = some node) : t.makeDirectory p = .error ⟨.alreadyExists, p.toString⟩ := by
  rw [makeDirectory, located]
  dsimp only
  rw [found]
  rfl

/-- The directories above one that has a place are not asked for. -/
private theorem ensureDirectories_child {p : Path} {name : String} (plain : Path.IsPlain name) :
    t.ensureDirectories (p.child name) = match t.makeDirectory (p.child name) with
      | .ok made => .ok made
      | .error ⟨.notFound, _⟩ => do (← t.ensureAll p.anchor p.parts.reverse).ensureDirectory (p.child name)
      | .error _ => t.ensureDirectory (p.child name) := by
  have back : (p.child name).parts.reverse = name :: p.parts.reverse := by
    rw [Path.child_plain plain, List.reverse_append]
    rfl
  have same : (⟨p.anchor, (name :: p.parts.reverse).reverse⟩ : Path) = p.child name := by
    rw [Path.child_plain plain, List.reverse_cons, List.reverse_reverse]
  have anchor : (p.child name).anchor = p.anchor := by rw [Path.child_plain plain]
  have reached : t.ensureDirectories (p.child name) = t.ensureAll p.anchor (name :: p.parts.reverse) := by
    rw [ensureDirectories, back, anchor]
  rw [reached, ← same]
  rfl

theorem ensureDirectories_new {p : Path} {place : Location} {name : String} (plain : Path.IsPlain name)
    (located : t.locate (p.child name) = .ok place) (absent : t.find? place = none) :
    t.ensureDirectories (p.child name) = .ok (t.extend [(place, .directory)]) := by
  rw [ensureDirectories_child plain, makeDirectory_new located absent]

theorem ensureDirectories_present {p : Path} {place : Location} {name : String} (plain : Path.IsPlain name)
    (located : t.locate (p.child name) = .ok place) (inside : t.find? place = some .directory) :
    t.ensureDirectories (p.child name) = .ok t := by
  rw [ensureDirectories_child plain, makeDirectory_present located inside]
  dsimp only
  rw [ensureDirectory, makeDirectory_present located inside]
  dsimp only
  rw [isDirectory_of_find? located inside]
  rfl

theorem write_new {p : Path} {place : Location} (located : t.locate p = .ok place) (absent : t.find? place = none)
    (content : List UInt8) : t.write p content = .ok (t.extend [(place, .file content)]) := by
  rw [write, located]
  dsimp only
  rw [absent, put_new absent]

end Make

theorem walk_flat {place target : Location} {parts : List String} (flat : ".." ∉ parts)
    (walked : t.walk place parts = .ok target) : target = place ++ parts := by
  induction parts generalizing place with
  | nil =>
    cases walked
    rw [List.append_nil]
  | cons part rest ih =>
    rw [List.mem_cons, not_or] at flat
    rw [walk] at walked
    split at walked
    · cases walked
    · cases walked
    · cases walked
    · cases walked
    · rw [if_neg (by simpa using Ne.symm flat.1)] at walked
      split at walked
      · cases walked
      · rw [ih flat.2 walked, List.append_assoc, List.singleton_append]

theorem locate_flat {p : Path} (absolute : p.isAbsolute = true) (flat : ".." ∉ p.parts) {place : Location}
    (located : t.locate p = .ok place) : place = p.parts := by
  obtain ⟨_, _, walked⟩ := locate_eq_ok_iff.mp located
  rw [if_pos absolute] at walked
  exact walk_flat flat walked

theorem flatten_flat (parts : List String) : ".." ∉ flatten parts := by
  have step (parts done : List String) (flat : ".." ∉ done) :
      ".." ∉ parts.foldl (fun done part => if part == ".." then done.dropLast else done ++ [part]) done := by
    induction parts generalizing done with
    | nil => exact flat
    | cons part rest ih =>
      rw [List.foldl_cons]
      apply ih
      split
      · exact fun member => flat (List.dropLast_subset _ member)
      · next other =>
        rw [List.mem_append, List.mem_singleton, not_or]
        exact ⟨flat, fun same => other (by rw [← same, beq_self_eq_true])⟩
  exact step parts [] (by simp)

theorem absolute_flat {p q : Path} (absolute : t.absolute p = .ok q) : q.isAbsolute = true ∧ ".." ∉ q.parts := by
  rw [Tree.absolute] at absolute
  split at absolute
  · cases absolute
  · cases absolute
    exact ⟨rfl, flatten_flat _⟩

/-- A tree in which an absolute path leads to a directory, with what had to be made on the way there. -/
structure Reaches (t : Tree) (p : Path) (made : Tree) : Prop where
  more : ∃ added : List (Location × Node), made = t.extend added ∧ ∀ entry ∈ added, entry.1 <+: p.parts
  located : made.locate p = .ok p.parts
  inside : (made.find? p.parts).any Node.isDirectory = true

variable {p : Path} {made : Tree}

private theorem reaches_of_makeDirectory (absolute : p.isAbsolute = true) (flat : ".." ∉ p.parts)
    (done : t.makeDirectory p = .ok made) : t.Reaches p made := by
  rw [makeDirectory] at done
  split at done
  · cases done
  · next place located =>
    cases locate_flat absolute flat located
    split at done
    · cases done
    · next absent =>
      rw [Bool.not_eq_true, Option.isSome_eq_false_iff, Option.isNone_iff_eq_none] at absent
      cases done
      rw [put_new absent]
      refine ⟨⟨_, rfl, fun entry member => ?_⟩, locate_extend located _, ?_⟩
      · obtain rfl := List.mem_singleton.mp member
        exact List.prefix_rfl
      · rw [find?_extend, absent, Option.none_or, List.lookup_cons_self]
        rfl

private theorem reaches_of_ensureDirectory (absolute : p.isAbsolute = true) (flat : ".." ∉ p.parts)
    (done : t.ensureDirectory p = .ok made) : t.Reaches p made := by
  rw [ensureDirectory] at done
  split at done
  · next made' tried =>
    cases done
    exact reaches_of_makeDirectory absolute flat tried
  · cases directory : t.isDirectory p with
    | error =>
      rw [directory] at done
      cases done
    | ok here =>
      rw [directory] at done
      cases here with
      | false => cases done
      | true =>
        cases done
        obtain ⟨place, located, inside⟩ := locate_of_isDirectory directory
        cases locate_flat absolute flat located
        exact ⟨⟨[], (extend_nil t).symm, by simp⟩, located, inside⟩

theorem Reaches.trans {q : Path} {middle : Tree} (first : t.Reaches q middle) (second : middle.Reaches p made)
    (above : q.parts <+: p.parts) : t.Reaches p made := by
  obtain ⟨added, rfl, below⟩ := first.more
  obtain ⟨more, rfl, last⟩ := second.more
  refine ⟨⟨added ++ more, extend_extend _ _ _, fun entry member => ?_⟩, second.located, second.inside⟩
  rcases List.mem_append.mp member with member | member
  · exact (below entry member).trans above
  · exact last entry member

/-- Making a directory with all above it adds nothing but these. -/
theorem reaches_of_ensureDirectories (absolute : p.isAbsolute = true) (flat : ".." ∉ p.parts)
    (done : t.ensureDirectories p = .ok made) : t.Reaches p made := by
  have all (parts : List String) (flat : ".." ∉ parts.reverse) (made : Tree)
      (done : t.ensureAll p.anchor parts = .ok made) : t.Reaches ⟨p.anchor, parts.reverse⟩ made := by
    induction parts generalizing made with
    | nil => exact reaches_of_ensureDirectory absolute flat done
    | cons part above ih =>
      rw [ensureAll] at done
      split at done
      · next tried =>
        cases done
        exact reaches_of_makeDirectory absolute flat tried
      · cases middle : t.ensureAll p.anchor above with
        | error =>
          rw [middle] at done
          cases done
        | ok tree =>
          rw [middle] at done
          have below : above.reverse <+: (part :: above).reverse := by
            rw [List.reverse_cons]
            exact List.prefix_append _ _
          have first := ih (fun member => flat (below.subset member)) tree middle
          exact first.trans (reaches_of_ensureDirectory absolute flat done) below
      · exact reaches_of_ensureDirectory absolute flat done
  have reaches := all p.parts.reverse (by rwa [List.reverse_reverse]) made done
  rwa [List.reverse_reverse] at reaches

/-- The names in a directory among some entries. -/
def namesIn (entries : List (Location × Node)) (place : Location) : List String :=
  entries.filterMap fun entry => if entry.1.dropLast == place then entry.1.getLast? else none

theorem names_extend (t : Tree) (more : List (Location × Node)) (place : Location) :
    (t.extend more).names place = (namesIn t.entries place ++ namesIn more place).mergeSort nameLe := by
  rw [namesIn, namesIn, ← List.filterMap_append]
  rfl

theorem namesIn_eq_nil {entries : List (Location × Node)} {place : Location}
    (other : ∀ entry ∈ entries, entry.1.dropLast ≠ place) : namesIn entries place = [] := by
  rw [namesIn, List.filterMap_eq_nil_iff]
  intro entry member
  rw [if_neg (by simpa using other entry member)]

/-- A place where nothing lies below. -/
def Hollow (t : Tree) (place : Location) : Prop :=
  ∀ entry ∈ t.entries, place <+: entry.1 → entry.1 = place

theorem Hollow.find?_eq_none {place : Location} (hollow : t.Hollow place) (name : String) (more : Location) :
    t.find? (place ++ name :: more) = none := by
  rw [find?, if_neg (by simp), List.lookup_eq_none_iff]
  intro entry member
  rw [bne_iff_ne]
  intro same
  have here := hollow entry member (same ▸ List.prefix_append _ _)
  rw [here] at same
  simp at same

theorem Hollow.namesIn_eq_nil {place : Location} (hollow : t.Hollow place) (name : String) :
    namesIn t.entries (place ++ [name]) = [] := by
  refine Tree.namesIn_eq_nil fun entry member same => ?_
  have prior : place <+: entry.1 := (List.prefix_append place [name]).trans (same ▸ List.dropLast_prefix entry.1)
  rw [hollow entry member prior] at same
  have length := congrArg List.length same
  rw [List.length_dropLast, List.length_append, List.length_singleton] at length
  omega

theorem Reaches.hollow (reaches : t.Reaches p made) (hollow : t.Hollow p.parts) : made.Hollow p.parts := by
  obtain ⟨added, rfl, above⟩ := reaches.more
  intro entry member below
  rcases List.mem_append.mp member with member | member
  · exact hollow entry member below
  · exact (above entry member).eq_of_length_le below.length_le

end Tree

end SchemaSync
