import SchemaSync.Plan.Difference

/-! Objects in a list, read and changed by key. A pass over items with different keys can be
understood item by item: each item finds its own object as it was before the pass. -/

namespace SchemaSync.Keyed

variable {α : Type} (keyOf : α → NameKey)

def get? (key : NameKey) (objects : List α) : Option α :=
  objects.find? (keyOf · == key)

abbrev Distinct (objects : List α) : Prop :=
  (objects.map keyOf).Nodup

def add? (object : α) (objects : List α) : Option (List α) :=
  if (get? keyOf (keyOf object) objects).isSome then none else some (objects ++ [object])

def modify? (key : NameKey) (change : α → Option α) : List α → Option (List α)
  | [] => none
  | object :: rest =>
    if keyOf object = key then (change object).map (· :: rest)
    else (modify? key change rest).map (object :: ·)

/-- Puts an object in the place of the one with its key, or at the end. -/
def store (object : α) : List α → List α
  | [] => [object]
  | other :: rest =>
    if keyOf other = keyOf object then object :: rest else other :: store object rest

variable {keyOf}

theorem key_of_get? {key : NameKey} {objects : List α} {object : α}
    (found : get? keyOf key objects = some object) : keyOf object = key := by
  simpa using List.find?_some found

theorem mem_of_get? {key : NameKey} {objects : List α} {object : α}
    (found : get? keyOf key objects = some object) : object ∈ objects :=
  List.mem_of_find?_eq_some found

theorem get?_eq_none {key : NameKey} {objects : List α} :
    get? keyOf key objects = none ↔ key ∉ objects.map keyOf := by
  simp [get?, List.find?_eq_none]

theorem get?_cons (key : NameKey) (object : α) (rest : List α) :
    get? keyOf key (object :: rest) = if keyOf object = key then some object else get? keyOf key rest := by
  by_cases same : keyOf object = key
  · simp [get?, same]
  · simp [get?, same]

theorem get?_of_mem {objects : List α} (distinct : Distinct keyOf objects) {object : α}
    (member : object ∈ objects) : get? keyOf (keyOf object) objects = some object := by
  induction objects with
  | nil => cases member
  | cons first rest ih =>
    obtain ⟨fresh, distinct⟩ := List.nodup_cons.mp distinct
    rw [get?_cons]
    rcases List.mem_cons.mp member with rfl | member
    · rw [if_pos rfl]
    · have different : keyOf first ≠ keyOf object :=
        fun same => fresh (same ▸ List.mem_map_of_mem member)
      rw [if_neg different]
      exact ih distinct member

theorem get?_eq_some_iff {objects : List α} (distinct : Distinct keyOf objects) {key : NameKey}
    {object : α} : get? keyOf key objects = some object ↔ object ∈ objects ∧ keyOf object = key := by
  constructor
  · exact fun found => ⟨mem_of_get? found, key_of_get? found⟩
  · rintro ⟨member, rfl⟩
    exact get?_of_mem distinct member

theorem lastWith?_eq_get? {objects : List α} (distinct : Distinct keyOf objects) (key : NameKey) :
    lastWith? keyOf key objects = get? keyOf key objects := by
  have reversed : Distinct keyOf objects.reverse := by
    rw [Distinct, List.map_reverse]
    exact List.pairwise_reverse.mpr (List.Pairwise.imp Ne.symm distinct)
  change get? keyOf key objects.reverse = get? keyOf key objects
  apply Option.ext
  intro object
  rw [get?_eq_some_iff reversed, get?_eq_some_iff distinct, List.mem_reverse]

theorem get?_append_single (key : NameKey) (objects : List α) (object : α) :
    get? keyOf key (objects ++ [object]) =
      (get? keyOf key objects).or (if keyOf object = key then some object else none) := by
  by_cases same : keyOf object = key <;> simp [get?, List.find?_append, same]

/-- One object of a list is new or has changed, and all others are as before. -/
structure Updated (keyOf : α → NameKey) (object : α) (before after : List α) : Prop where
  distinct : Distinct keyOf after
  get : ∀ key, get? keyOf key after =
    if key = keyOf object then some object else get? keyOf key before

theorem add?_updates {objects : List α} (distinct : Distinct keyOf objects) (object : α)
    (fresh : get? keyOf (keyOf object) objects = none) :
    ∃ after, add? keyOf object objects = some after ∧ Updated keyOf object objects after := by
  refine ⟨objects ++ [object], by simp [add?, fresh], ?_, ?_⟩
  · rw [Distinct, List.map_append, List.nodup_append]
    refine ⟨distinct, by simp, ?_⟩
    intro key member other last same
    subst same
    rw [List.map_singleton, List.mem_singleton] at last
    exact get?_eq_none.mp fresh (last ▸ member)
  · intro key
    rw [get?_append_single]
    by_cases same : keyOf object = key
    · subst same
      simp [fresh]
    · simp [same, Ne.symm same]

theorem map_modify? {β : Type} {f : α → β} {key : NameKey} {change : α → Option α}
    {objects after : List α} (keeps : ∀ object changed, change object = some changed →
      f changed = f object)
    (modified : modify? keyOf key change objects = some after) : after.map f = objects.map f := by
  induction objects generalizing after with
  | nil => cases modified
  | cons object rest ih =>
    rw [modify?] at modified
    split at modified
    · obtain ⟨changed, result, rfl⟩ := Option.map_eq_some_iff.mp modified
      rw [List.map_cons, List.map_cons, keeps object changed result]
    · obtain ⟨others, result, rfl⟩ := Option.map_eq_some_iff.mp modified
      rw [List.map_cons, List.map_cons, ih result]

theorem modify?_updates {objects : List α} (distinct : Distinct keyOf objects) {key : NameKey}
    {change : α → Option α} {object changed : α} (found : get? keyOf key objects = some object)
    (result : change object = some changed) (same : keyOf changed = key) :
    ∃ after, modify? keyOf key change objects = some after ∧
      Updated keyOf changed objects after := by
  induction objects with
  | nil => cases found
  | cons first rest ih =>
    obtain ⟨fresh, rested⟩ := List.nodup_cons.mp distinct
    rw [get?_cons] at found
    split at found
    · next here =>
      cases found
      refine ⟨changed :: rest, by simp [modify?, here, result], ?_, ?_⟩
      · rw [Distinct, List.map_cons, same, ← here]
        exact distinct
      · intro other
        rw [get?_cons, get?_cons, same, here]
        by_cases equal : other = key
        · simp [equal]
        · simp [equal, Ne.symm equal]
    · next elsewhere =>
      obtain ⟨after, modified, updated⟩ := ih rested found
      refine ⟨first :: after, by simp [modify?, elsewhere, modified], ?_, ?_⟩
      · have keys : keyOf first ∉ after.map keyOf := by
          rw [← get?_eq_none, updated.get, same, if_neg elsewhere, get?_eq_none]
          exact fresh
        exact List.nodup_cons.mpr ⟨keys, updated.distinct⟩
      · intro other
        rw [get?_cons, get?_cons, updated.get, same]
        by_cases equal : other = key
        · simp [equal, elsewhere]
        · simp [equal]

theorem store_updates {objects : List α} (distinct : Distinct keyOf objects) (object : α) :
    Updated keyOf object objects (store keyOf object objects) := by
  induction objects with
  | nil => exact ⟨List.pairwise_singleton _ _, fun key => by simp [store, get?_cons, eq_comm]⟩
  | cons first rest ih =>
    obtain ⟨fresh, rested⟩ := List.nodup_cons.mp distinct
    rw [store]
    split
    · next here =>
      refine ⟨by rwa [Distinct, List.map_cons, ← here], ?_⟩
      intro key
      rw [get?_cons, get?_cons, here]
      by_cases same : key = keyOf object
      · simp [same]
      · simp [same, Ne.symm same]
    · next elsewhere =>
      have updated := ih rested
      refine ⟨?_, ?_⟩
      · have keys : keyOf first ∉ (store keyOf object rest).map keyOf := by
          rw [← get?_eq_none, updated.get, if_neg elsewhere, get?_eq_none]
          exact fresh
        exact List.nodup_cons.mpr ⟨keys, updated.distinct⟩
      · intro key
        rw [get?_cons, get?_cons, updated.get]
        by_cases same : key = keyOf object
        · simp [same, elsewhere]
        · simp [same]

theorem Updated.refl {objects : List α} (distinct : Distinct keyOf objects) {key : NameKey}
    {object : α} (found : get? keyOf key objects = some object) :
    Updated keyOf object objects objects := by
  refine ⟨distinct, fun other => ?_⟩
  split
  · next same => rw [same, key_of_get? found, found]
  · rfl

theorem Updated.trans {first second : α} {before middle after : List α}
    (one : Updated keyOf first before middle) (two : Updated keyOf second middle after)
    (same : keyOf first = keyOf second) : Updated keyOf second before after := by
  refine ⟨two.distinct, fun key => ?_⟩
  rw [two.get, one.get, same]
  split <;> rfl

theorem key_foldlM {ι : Type} {change : ι → α → Option α}
    (keeps : ∀ item object changed, change item object = some changed →
      keyOf changed = keyOf object)
    {items : List ι} {object changed : α}
    (ran : items.foldlM (fun object item => change item object) object = some changed) :
    keyOf changed = keyOf object := by
  induction items generalizing object with
  | nil => cases ran; rfl
  | cons item rest ih =>
    rw [List.foldlM_cons] at ran
    obtain ⟨next, stepped, ran⟩ := Option.bind_eq_some_iff.mp ran
    exact (ih ran).trans (keeps item object next stepped)

variable {δ σ β : Type}

theorem foldlM_flatMap {γ : Type} (f : σ → γ → Option σ) (parts : δ → List γ) (items : List δ)
    (start : σ) : (items.flatMap parts).foldlM f start =
      items.foldlM (fun state item => (parts item).foldlM f state) start := by
  induction items generalizing start with
  | nil => rfl
  | cons item rest ih =>
    rw [List.foldlM_cons, List.flatMap_cons, List.foldlM_append]
    exact bind_congr fun state => ih state

/-- Changes of one object among others, one after the other, change that object by all of them. -/
theorem foldlM_updates {ι : Type} {change : ι → α → Option α}
    (keeps : ∀ item object changed, change item object = some changed →
      keyOf changed = keyOf object)
    (run : ι → σ → Option σ) (read : σ → List α) (holds : σ → Prop) {key : NameKey}
    {items : List ι}
    (each : ∀ item ∈ items, ∀ state object changed, holds state → Distinct keyOf (read state) →
      get? keyOf key (read state) = some object → change item object = some changed →
      ∃ after, run item state = some after ∧ holds after ∧
        Updated keyOf changed (read state) (read after))
    {start : σ} (initially : holds start) (distinct : Distinct keyOf (read start))
    {object changed : α} (found : get? keyOf key (read start) = some object)
    (ran : items.foldlM (fun object item => change item object) object = some changed) :
    ∃ finish, items.foldlM (fun state item => run item state) start = some finish ∧ holds finish ∧
      Updated keyOf changed (read start) (read finish) := by
  induction items generalizing start object with
  | nil =>
    cases ran
    exact ⟨start, rfl, initially, .refl distinct found⟩
  | cons item rest ih =>
    rw [List.foldlM_cons] at ran
    obtain ⟨next, stepped, ran⟩ := Option.bind_eq_some_iff.mp ran
    obtain ⟨middle, moved, kept, one⟩ := each item (by simp) start object next initially distinct found stepped
    have there : get? keyOf key (read middle) = some next := by
      rw [one.get, if_pos]
      exact (key_of_get? found).symm.trans (keeps item object next stepped).symm
    obtain ⟨finish, passed, last, two⟩ := ih
      (fun item member => each item (by simp [member])) kept one.distinct there ran
    exact ⟨finish, by simp [moved, passed], last, one.trans two (key_foldlM keeps ran).symm⟩

/-- A pass over items with different keys. When each item succeeds in a state in which its own key
reads as at the start, and leaves what reads under other keys alone, then the pass succeeds, and
what an item brings about is still there at the end. -/
theorem pass {keyOf : δ → NameKey} (run : δ → σ → Option σ) (read : NameKey → σ → β)
    (holds : σ → Prop) (done : δ → β → Prop) {items : List δ} (distinct : Distinct keyOf items)
    {start : σ} (initially : holds start)
    (each : ∀ item ∈ items, ∀ state, holds state →
      read (keyOf item) state = read (keyOf item) start →
      ∃ after, run item state = some after ∧ holds after ∧
        (∀ key, key ≠ keyOf item → read key after = read key state) ∧
        done item (read (keyOf item) after)) :
    ∃ finish, items.foldlM (fun state item => run item state) start = some finish ∧ holds finish ∧
      (∀ key, key ∉ items.map keyOf → read key finish = read key start) ∧
      ∀ item ∈ items, done item (read (keyOf item) finish) := by
  induction items generalizing start with
  | nil => exact ⟨start, rfl, initially, fun _ _ => rfl, by simp⟩
  | cons item rest ih =>
    obtain ⟨fresh, rested⟩ := List.nodup_cons.mp distinct
    obtain ⟨after, ran, kept, others, brought⟩ := each item (by simp) start initially rfl
    have different : ∀ other ∈ rest, keyOf other ≠ keyOf item :=
      fun other member same => fresh (same ▸ List.mem_map_of_mem member)
    obtain ⟨finish, passed, last, untouched, achieved⟩ := ih rested kept
      (fun other member state valid same =>
        each other (by simp [member]) state valid (same.trans (others _ (different other member))))
    refine ⟨finish, by simp [ran, passed], last, ?_, ?_⟩
    · intro key absent
      rw [List.map_cons, List.mem_cons, not_or] at absent
      rw [untouched key absent.2, others key absent.1]
    · intro other member
      rcases List.mem_cons.mp member with rfl | member
      · rwa [untouched _ fresh]
      · exact achieved other member

/-- A list that has wanted objects in it besides those it had before. An object that is wanted and
was there has been altered, and one that was not there is like the wanted one. -/
structure Merged (keyOf : α → NameKey) (altered : α → α → α → Prop) (like : α → α → Prop)
    (before wanted after : List α) : Prop where
  distinct : Distinct keyOf after
  altered : ∀ key existing desired, get? keyOf key before = some existing →
    get? keyOf key wanted = some desired →
    ∃ object, get? keyOf key after = some object ∧ altered existing desired object
  kept : ∀ key existing, get? keyOf key before = some existing → get? keyOf key wanted = none →
    get? keyOf key after = some existing
  added : ∀ key desired, get? keyOf key before = none → get? keyOf key wanted = some desired →
    ∃ object, get? keyOf key after = some object ∧ like desired object
  absent : ∀ key, get? keyOf key before = none → get? keyOf key wanted = none →
    get? keyOf key after = none

/-- Adding those of the wanted objects that are missing. -/
theorem addMissing {keyOf : α → NameKey} (like : α → α → Prop) (run : α → σ → Option σ)
    (read : σ → List α) (holds : σ → Prop) {wanted : List α} (wantedDistinct : Distinct keyOf wanted)
    {start : σ} (initially : holds start) (distinct : Distinct keyOf (read start))
    (each : ∀ desired ∈ wanted, ∀ state, holds state → Distinct keyOf (read state) →
      get? keyOf (keyOf desired) (read state) = none →
      ∃ after object, run desired state = some after ∧ holds after ∧ like desired object ∧
        keyOf object = keyOf desired ∧ Updated keyOf object (read state) (read after)) :
    ∃ finish, (wanted.filter fun desired => (get? keyOf (keyOf desired) (read start)).isNone).foldlM
        (fun state desired => run desired state) start = some finish ∧ holds finish ∧
      Merged keyOf (fun existing _ object => object = existing) like (read start) wanted
        (read finish) := by
  -- The pass is over the missing ones only, so whatever was there is untouched by it.
  let missing := wanted.filter fun desired => (get? keyOf (keyOf desired) (read start)).isNone
  have mem : ∀ desired, desired ∈ missing ↔
      desired ∈ wanted ∧ get? keyOf (keyOf desired) (read start) = none := by
    simp [missing, List.mem_filter]
  obtain ⟨finish, passed, ⟨last, lastDistinct⟩, untouched, achieved⟩ := pass
    run (fun key state => get? keyOf key (read state))
    (fun state => holds state ∧ Distinct keyOf (read state))
    (fun desired found => ∃ object, found = some object ∧ like desired object)
    (List.Nodup.sublist (List.Sublist.map _ List.filter_sublist) wantedDistinct : Distinct keyOf missing)
    ⟨initially, distinct⟩
    (fun desired member state valid same => by
      obtain ⟨inside, fresh⟩ := (mem desired).mp member
      obtain ⟨after, object, ran, kept, alike, key, updated⟩ :=
        each desired inside state valid.1 valid.2 (same.trans fresh)
      refine ⟨after, ran, ⟨kept, updated.distinct⟩, ?_, object, ?_, alike⟩
      · intro other different
        rw [updated.get, if_neg (key ▸ different)]
      · rw [updated.get, if_pos key.symm])
  have present : ∀ key existing, get? keyOf key (read start) = some existing →
      get? keyOf key (read finish) = some existing := by
    intro key existing there
    rw [untouched key, there]
    intro asked
    obtain ⟨desired, member, rfl⟩ := List.mem_map.mp asked
    rw [((mem desired).mp member).2] at there
    cases there
  refine ⟨finish, passed, last, lastDistinct, ?_, fun key existing there _ => present key existing there, ?_, ?_⟩
  · intro key existing desired there _
    exact ⟨existing, present key existing there, rfl⟩
  · intro key desired fresh asked
    obtain ⟨inside, rfl⟩ := (get?_eq_some_iff wantedDistinct).mp asked
    exact achieved desired ((mem desired).mpr ⟨inside, fresh⟩)
  · intro key fresh unasked
    rw [untouched key, fresh]
    intro asked
    obtain ⟨desired, member, rfl⟩ := List.mem_map.mp asked
    exact get?_eq_none.mp unasked (List.mem_map_of_mem ((mem desired).mp member).1)

/-- Altering those of the wanted objects that were there before. -/
theorem alterMatched {keyOf : α → NameKey} {old : α → α → α → Prop} (new : α → α → α → Prop)
    {like : α → α → Prop} (run : α → σ → Option σ) (read : σ → List α) (holds : σ → Prop) {before wanted : List α}
    (wantedDistinct : Distinct keyOf wanted) (start : σ) (initially : holds start)
    (merged : Merged keyOf old like before wanted (read start))
    (skip : ∀ desired ∈ wanted, get? keyOf (keyOf desired) before = none →
      ∀ state, run desired state = some state)
    (each : ∀ desired ∈ wanted, ∀ existing, get? keyOf (keyOf desired) before = some existing →
      ∀ state object, holds state → Distinct keyOf (read state) → old existing desired object →
      get? keyOf (keyOf desired) (read state) = some object →
      ∃ after changed, run desired state = some after ∧ holds after ∧
        new existing desired changed ∧ keyOf changed = keyOf desired ∧
        Updated keyOf changed (read state) (read after)) :
    ∃ finish, wanted.foldlM (fun state desired => run desired state) start = some finish ∧
      holds finish ∧ Merged keyOf new like before wanted (read finish) := by
  -- What the pass has to bring about depends on whether the wanted object was there before.
  obtain ⟨finish, passed, ⟨last, lastDistinct⟩, untouched, achieved⟩ := pass
    run (fun key state => get? keyOf key (read state))
    (fun state => holds state ∧ Distinct keyOf (read state))
    (fun desired found =>
      (∀ existing, get? keyOf (keyOf desired) before = some existing →
        ∃ object, found = some object ∧ new existing desired object) ∧
      (get? keyOf (keyOf desired) before = none → ∃ object, found = some object ∧ like desired object))
    wantedDistinct ⟨initially, merged.distinct⟩
    (fun desired member state valid same => by
      have asked := get?_of_mem wantedDistinct member
      cases there : get? keyOf (keyOf desired) before with
      | none =>
        refine ⟨state, skip desired member there state, valid, fun _ _ => rfl, by simp, fun _ => ?_⟩
        rw [same]
        exact merged.added _ desired there asked
      | some existing =>
        obtain ⟨object, found, altered⟩ := merged.altered _ existing desired there asked
        obtain ⟨after, changed, ran, kept, renewed, key, updated⟩ :=
          each desired member existing there state object valid.1 valid.2 altered (same.trans found)
        refine ⟨after, ran, ⟨kept, updated.distinct⟩, ?_, ?_, by simp⟩
        · intro other different
          rw [updated.get, if_neg (key ▸ different)]
        · intro _ same
          cases same
          exact ⟨changed, by rw [updated.get, if_pos key.symm], renewed⟩)
  refine ⟨finish, passed, last, lastDistinct, ?_, ?_, ?_, ?_⟩
  · intro key existing desired there asked
    obtain ⟨member, rfl⟩ := (get?_eq_some_iff wantedDistinct).mp asked
    exact (achieved desired member).1 existing there
  · intro key existing there unasked
    rw [untouched key (get?_eq_none.mp unasked)]
    exact merged.kept key existing there unasked
  · intro key desired fresh asked
    obtain ⟨member, rfl⟩ := (get?_eq_some_iff wantedDistinct).mp asked
    exact (achieved desired member).2 fresh
  · intro key fresh unasked
    rw [untouched key (get?_eq_none.mp unasked)]
    exact merged.absent key fresh unasked

end SchemaSync.Keyed
