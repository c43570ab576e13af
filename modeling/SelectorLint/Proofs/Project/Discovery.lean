import SelectorLint.Files.Tree
import SelectorLint.Proofs.Project.Ends

/-!
# What a walk finds

A walk passes over a listed directory with all that lies below it, while it goes along. Here the
tree is described without the walk: an entry stands at a location, the names that lead to it from
the root. The order of the walk is the order of locations, name by name and by the bytes of the
names; a directory comes right before what lies below it, since its location is the beginning of
theirs.

Main statement: a walk that ends well gives the stylesheets that neither are listed nor lie below a
listed directory, in the order of their locations, and it ends well exactly when every directory
that it has to read can be read.
-/

namespace SelectorLint.Project

open Files Log Text

/-! ## Locations -/

/-- What stands at a location below a directory. -/
inductive Stands : List (Bytes × Entry) → Location → Entry → Prop where
  /-- An entry of the directory. -/
  | child {entries : List (Bytes × Entry)} {name : Bytes} {entry : Entry}
      (member : (name, entry) ∈ entries) : Stands entries [name] entry
  /-- What stands below an entry that is a directory. -/
  | inside {entries inner : List (Bytes × Entry)} {name : Bytes} {location : Location}
      {entry : Entry} (member : (name, .directory inner) ∈ entries)
      (deeper : Stands inner location entry) : Stands entries (name :: location) entry

/-- No directory of a tree holds two entries with the same name. -/
structure DistinctNames (entries : List (Bytes × Entry)) : Prop where
  /-- At the root. -/
  root : (entries.map Prod.fst).Nodup
  /-- In every directory below it. -/
  below : ∀ location inner, Stands entries location (.directory inner) →
    (inner.map Prod.fst).Nodup

/-- A name as text. -/
def nameText (name : Bytes) : String := String.ofList (Utf8.decodeLossy name)

/-- The path of a location: its names with slashes between them. -/
def pathOf (location : Location) : String := "/".intercalate (location.map nameText)

/-- No directory on the way to a location is listed. -/
def Reached (listed : List String) (location : Location) : Prop :=
  ∀ directory, directory ≠ [] → directory <+: location → directory ≠ location →
    pathOf directory ∉ listed

/-- The path of an entry of the root is its name. -/
theorem pathOf_singleton (name : Bytes) : pathOf [name] = nameText name :=
  String.intercalate_singleton

/-- The path of a deeper location is the name of its first directory, a slash and the path from
    there. -/
theorem pathOf_cons (name : Bytes) {location : Location} (nonempty : location ≠ []) :
    pathOf (name :: location) = nameText name ++ "/" ++ pathOf location := by
  rw [pathOf, List.map_cons, String.intercalate_cons_of_ne_nil (by simpa using nonempty)]
  rfl

/-- Nothing stands at the root itself. -/
theorem Stands.ne_nil {entries : List (Bytes × Entry)} {location : Location} {entry : Entry}
    (stands : Stands entries location entry) : location ≠ [] := by
  cases stands <;> exact List.cons_ne_nil _ _

/-! ## Every place of a tree -/

mutual

/-- The places below an entry, with what stands there. -/
def placesIn : Entry → List (Location × Entry)
  | .directory entries => placesBelow entries
  | .file => []
  | .link => []
  | .unreadable _ => []

/-- The places below a directory, with what stands there: each entry right before what lies below
    it. -/
def placesBelow : List (Bytes × Entry) → List (Location × Entry)
  | [] => []
  | (name, entry) :: rest =>
    ([name], entry) :: (placesIn entry).map (fun place => (name :: place.1, place.2))
      ++ placesBelow rest

end

/-- A place below a directory is one of its entries, or a place below one of them. -/
theorem mem_placesBelow_cases {entries : List (Bytes × Entry)} {place : Location × Entry} :
    place ∈ placesBelow entries ↔ ∃ name entry, (name, entry) ∈ entries ∧
      (place = ([name], entry) ∨ ∃ inner ∈ placesIn entry, place = (name :: inner.1, inner.2)) := by
  have collected : placesBelow entries = entries.flatMap fun entry =>
      ([entry.1], entry.2) ::
        (placesIn entry.2).map fun place => (entry.1 :: place.1, place.2) := by
    induction entries with
    | nil => rfl
    | cons first rest inductionHypothesis =>
      rw [placesBelow, inductionHypothesis, List.flatMap_cons]
  simp only [collected, List.mem_flatMap, Prod.exists, List.mem_cons, List.mem_map,
    eq_comm (b := place)]

/-- The places below a directory are the locations where something stands. -/
theorem mem_placesBelow_iff (entries : List (Bytes × Entry)) (location : Location)
    (entry : Entry) : (location, entry) ∈ placesBelow entries ↔ Stands entries location entry := by
  constructor
  · induction location generalizing entries with
    | nil =>
      intro member
      obtain ⟨name, _, _, isEntry | ⟨inner, _, isBelow⟩⟩ := mem_placesBelow_cases.mp member
      · cases isEntry
      · cases isBelow
    | cons first location inductionHypothesis =>
      intro member
      obtain ⟨name, entry, inEntries, isEntry | ⟨⟨inner, found⟩, inside, isBelow⟩⟩ :=
        mem_placesBelow_cases.mp member
      · cases isEntry
        exact .child inEntries
      · cases isBelow
        cases entry with
        | directory entries => exact .inside inEntries (inductionHypothesis entries inside)
        | file => cases inside
        | link => cases inside
        | unreadable cause => cases inside
  · intro stands
    induction stands with
    | child member => exact mem_placesBelow_cases.mpr ⟨_, _, member, .inl rfl⟩
    | inside member _ inductionHypothesis =>
      exact mem_placesBelow_cases.mpr ⟨_, _, member, .inr ⟨_, inductionHypothesis, rfl⟩⟩

/-- A place below an entry is not the entry itself. -/
theorem ne_nil_of_mem_placesIn {entry : Entry} {place : Location × Entry}
    (member : place ∈ placesIn entry) : place.1 ≠ [] := by
  cases entry with
  | directory entries => exact ((mem_placesBelow_iff _ _ _).mp member).ne_nil
  | file => cases member
  | link => cases member
  | unreadable cause => cases member

/-! ## The walk as a selection of places -/

/-- Whether no directory on the way to a location is listed, below a directory whose path begins
    with a text. -/
def reaches (listed : String → Bool) (front : String) : Location → Bool
  | [] => true
  | [_] => true
  | name :: rest =>
    !listed (front ++ nameText name) && reaches listed (front ++ nameText name ++ "/") rest

/-- A deeper location is reached through its first directory, which must not be listed. -/
theorem reaches_cons (listed : String → Bool) (front : String) (name : Bytes) {location : Location}
    (nonempty : location ≠ []) :
    reaches listed front (name :: location) =
      (!listed (front ++ nameText name) &&
        reaches listed (front ++ nameText name ++ "/") location) := by
  rw [reaches]
  exact nonempty

/-- What the walk notes at a place. -/
def visitOf (listed : String → Bool) (path : String) (entry : Entry) : Visit where
  path
  isFile := match entry with
    | .file => true
    | _ => false
  isListed := listed path
  fault := match entry with
    | .unreadable cause => if listed path then none else some cause
    | _ => none

/-- The entries of a directory are visited one after the other, each by the path that its name
    gives. -/
theorem visitEach_cons (listed : String → Bool) (front : String) (name : Bytes) (entry : Entry)
    (rest : List (Bytes × Entry)) :
    visitEach listed front ((name, entry) :: rest) =
      visit listed (front ++ nameText name) entry ++ visitEach listed front rest := by
  rw [visitEach]
  rfl

mutual

/-- A visit to an entry notes the entry and then, unless it is listed, the places below it that no
    listed directory hides. -/
theorem visit_eq (listed : String → Bool) (path : String) : (entry : Entry) →
    visit listed path entry = visitOf listed path entry ::
      if listed path then [] else
        ((placesIn entry).filter fun place => reaches listed (path ++ "/") place.1).map fun place =>
          visitOf listed (path ++ "/" ++ pathOf place.1) place.2
  | .file => by simp [visit, visitOf, placesIn]
  | .link => by simp [visit, visitOf, placesIn]
  | .directory entries => by
    rw [visit, placesIn, visitEach_eq listed (path ++ "/") entries]
    rfl
  | .unreadable cause => by simp [visit, visitOf, placesIn]

/-- Visits to entries note the places at and below them that no listed directory hides, in order.
    The induction is on the tree, together with that for one entry. -/
theorem visitEach_eq (listed : String → Bool) (front : String) :
    (entries : List (Bytes × Entry)) →
    visitEach listed front entries =
      ((placesBelow entries).filter fun place => reaches listed front place.1).map fun place =>
        visitOf listed (front ++ pathOf place.1) place.2
  | [] => rfl
  | (name, entry) :: rest => by
    -- Below the entry the walk goes on only if the entry is not listed.
    have selected : ((placesIn entry).filter fun place => reaches listed front (name :: place.1)) =
        if listed (front ++ nameText name) then [] else
          (placesIn entry).filter fun place =>
            reaches listed (front ++ nameText name ++ "/") place.1 := by
      have further (place : Location × Entry) (member : place ∈ placesIn entry) :=
        reaches_cons listed front name (ne_nil_of_mem_placesIn member)
      rw [List.filter_congr further]
      cases listed (front ++ nameText name) <;> simp
    have path (place : Location × Entry) (member : place ∈ placesIn entry) :
        visitOf listed (front ++ pathOf (name :: place.1)) place.2 =
          visitOf listed (front ++ nameText name ++ "/" ++ pathOf place.1) place.2 := by
      rw [pathOf_cons name (ne_nil_of_mem_placesIn member)]
      simp only [String.append_assoc]
    rw [visitEach_cons, visitEach_eq listed front rest, visit_eq listed _ entry, placesBelow,
      List.filter_append, List.map_append, List.filter_cons_of_pos rfl, List.map_cons,
      pathOf_singleton, List.filter_map, List.map_map]
    simp only [Function.comp_def, selected]
    congr 2
    split
    · rfl
    · exact List.map_congr_left fun place member =>
        (path place (List.mem_of_mem_filter member)).symm

end

/-- Going down is stopped by the directories on the way. -/
theorem reaches_iff (listed : String → Bool) (front : String) (location : Location) :
    reaches listed front location = true ↔ ∀ directory, directory ≠ [] → directory <+: location →
      directory ≠ location → listed (front ++ pathOf directory) = false := by
  induction location generalizing front with
  | nil =>
    refine iff_of_true rfl fun directory nonempty onTheWay _ => ?_
    exact absurd (List.prefix_nil.mp onTheWay) nonempty
  | cons name rest inductionHypothesis =>
    by_cases last : rest = []
    · subst last
      refine iff_of_true rfl fun directory nonempty onTheWay proper => ?_
      obtain ⟨tail, rfl, short⟩ := (List.prefix_cons_iff.mp onTheWay).resolve_left nonempty
      exact absurd (by rw [List.prefix_nil.mp short]) proper
    · rw [reaches_cons listed front name last, Bool.and_eq_true, Bool.not_eq_true',
        inductionHypothesis]
      constructor
      · rintro ⟨unlisted, further⟩ directory nonempty onTheWay proper
        obtain ⟨tail, rfl, short⟩ := (List.prefix_cons_iff.mp onTheWay).resolve_left nonempty
        by_cases first : tail = []
        · rw [first, pathOf_singleton, unlisted]
        · have unlistedToo := further tail first short fun same => proper (by rw [same])
          rwa [pathOf_cons name first, ← String.append_assoc, ← String.append_assoc]
      · intro unlisted
        constructor
        · rw [← pathOf_singleton]
          refine unlisted [name] (List.cons_ne_nil _ _) ?_ ?_
          · exact List.cons_prefix_cons.mpr ⟨rfl, List.nil_prefix⟩
          · simpa using Ne.symm last
        · intro directory nonempty onTheWay proper
          have further := unlisted (name :: directory) (List.cons_ne_nil _ _)
            (List.cons_prefix_cons.mpr ⟨rfl, onTheWay⟩) (by simpa using proper)
          rwa [pathOf_cons name nonempty, ← String.append_assoc, ← String.append_assoc] at further

/-! ## The tree in order -/

/-- Entries in the order of names, and so in every directory. -/
def arranged (entries : List (Bytes × Entry)) : List (Bytes × Entry) :=
  (eachInOrder entries).mergeSort nameLe

/-- Each entry is put in order by itself. -/
theorem eachInOrder_eq_map (entries : List (Bytes × Entry)) :
    eachInOrder entries = entries.map fun entry => (entry.1, inOrder entry.2) := by
  induction entries with
  | nil => rfl
  | cons entry rest inductionHypothesis =>
    rw [eachInOrder, inductionHypothesis, List.map_cons]

/-- Putting entries in order keeps their names, and puts each of them in order. -/
theorem mem_arranged_iff {entries : List (Bytes × Entry)} {name : Bytes} {entry : Entry} :
    (name, entry) ∈ arranged entries ↔ ∃ original, (name, original) ∈ entries ∧
      inOrder original = entry := by
  rw [arranged, List.mem_mergeSort, eachInOrder_eq_map, List.mem_map]
  simp [Prod.exists, Prod.mk.injEq]

/-- Only a directory becomes a directory in order, with its entries arranged. -/
theorem inOrder_eq_directory_iff {entry : Entry} {inner : List (Bytes × Entry)} :
    inOrder entry = .directory inner ↔
      ∃ original, entry = .directory original ∧ arranged original = inner := by
  cases entry <;> simp [inOrder, arranged]

/-- Putting a tree in order moves nothing to another location. -/
theorem stands_arranged_iff {entries : List (Bytes × Entry)} {location : Location} {entry : Entry} :
    Stands (arranged entries) location entry ↔
      ∃ original, Stands entries location original ∧ inOrder original = entry := by
  constructor
  · intro stands
    induction location generalizing entries with
    | nil => exact absurd rfl stands.ne_nil
    | cons name location inductionHypothesis =>
      cases stands with
      | child member =>
        obtain ⟨original, inEntries, same⟩ := mem_arranged_iff.mp member
        exact ⟨original, .child inEntries, same⟩
      | inside member deeper =>
        obtain ⟨_, inEntries, same⟩ := mem_arranged_iff.mp member
        obtain ⟨inner, rfl, rfl⟩ := inOrder_eq_directory_iff.mp same
        obtain ⟨original, stands, same⟩ := inductionHypothesis deeper
        exact ⟨original, .inside inEntries stands, same⟩
  · rintro ⟨original, stands, rfl⟩
    induction stands with
    | child member => exact .child (mem_arranged_iff.mpr ⟨_, member, rfl⟩)
    | inside member _ inductionHypothesis =>
      exact .inside (mem_arranged_iff.mpr ⟨_, member, rfl⟩) inductionHypothesis

/-- In every directory of a tree the names ascend. -/
structure Ascending (entries : List (Bytes × Entry)) : Prop where
  /-- At the root. -/
  root : (entries.map Prod.fst).Pairwise (· < ·)
  /-- In every directory below it. -/
  below : ∀ location inner, Stands entries location (.directory inner) →
    (inner.map Prod.fst).Pairwise (· < ·)

/-- Where the names of a tree ascend, they ascend in each of its directories. -/
theorem Ascending.inner {entries inner : List (Bytes × Entry)} {name : Bytes}
    (ascending : Ascending entries) (member : (name, .directory inner) ∈ entries) :
    Ascending inner where
  root := ascending.below [name] inner (.child member)
  below location deeper stands :=
    ascending.below (name :: location) deeper (.inside member stands)

/-- Where the names of a tree ascend, they ascend without the first entry. -/
theorem Ascending.tail {first : Bytes × Entry} {rest : List (Bytes × Entry)}
    (ascending : Ascending (first :: rest)) : Ascending rest where
  root := (List.pairwise_cons.mp ascending.root).2
  below location inner stands := by
    refine ascending.below location inner ?_
    cases stands with
    | child member => exact .child (List.mem_cons_of_mem first member)
    | inside member deeper => exact .inside (List.mem_cons_of_mem first member) deeper

/-- The order of names is transitive. -/
theorem nameLe_trans (first second third : Bytes × Entry) (le : nameLe first second = true)
    (leToo : nameLe second third = true) : nameLe first third = true := by
  simp only [nameLe, decide_eq_true_eq] at le leToo ⊢
  exact List.le_trans le leToo

/-- Of two names one comes first, or they are the same. -/
theorem nameLe_total (first second : Bytes × Entry) :
    (nameLe first second || nameLe second first) = true := by
  simp only [nameLe, Bool.or_eq_true, decide_eq_true_eq]
  exact List.le_total _ _

/-- Different names that are put in order ascend. -/
theorem pairwise_names_arranged {entries : List (Bytes × Entry)}
    (distinct : (entries.map Prod.fst).Nodup) :
    ((arranged entries).map Prod.fst).Pairwise (· < ·) := by
  have sorted : (arranged entries).Pairwise fun first second => nameLe first second = true :=
    List.pairwise_mergeSort nameLe_trans nameLe_total (eachInOrder entries)
  have ordered : ((arranged entries).map Prod.fst).Pairwise (· ≤ ·) :=
    List.pairwise_map.mpr (sorted.imp of_decide_eq_true)
  have names : (eachInOrder entries).map Prod.fst = entries.map Prod.fst := by
    rw [eachInOrder_eq_map, List.map_map]
    rfl
  have permuted : ((arranged entries).map Prod.fst).Perm (entries.map Prod.fst) :=
    names ▸ (List.mergeSort_perm (eachInOrder entries) nameLe).map Prod.fst
  have different : ((arranged entries).map Prod.fst).Nodup := permuted.nodup_iff.mpr distinct
  exact ordered.imp₂ (fun _ _ => Std.lt_of_le_of_ne) different

/-- A tree without a name twice in one directory has ascending names once it is put in order. -/
theorem DistinctNames.ascending {entries : List (Bytes × Entry)}
    (distinct : DistinctNames entries) : Ascending (arranged entries) where
  root := pairwise_names_arranged distinct.root
  below location inner stands := by
    obtain ⟨_, standsOriginal, same⟩ := stands_arranged_iff.mp stands
    obtain ⟨original, rfl, rfl⟩ := inOrder_eq_directory_iff.mp same
    exact pairwise_names_arranged (distinct.below location original standsOriginal)

/-- A location below a directory begins with the name of one of its entries. -/
theorem exists_name_of_mem_placesBelow {entries : List (Bytes × Entry)} {place : Location × Entry}
    (member : place ∈ placesBelow entries) :
    ∃ name ∈ entries.map Prod.fst, ∃ rest, place.1 = name :: rest := by
  obtain ⟨name, entry, inEntries, rfl | ⟨inner, _, rfl⟩⟩ := mem_placesBelow_cases.mp member
  · exact ⟨name, List.mem_map.mpr ⟨_, inEntries, rfl⟩, [], rfl⟩
  · exact ⟨name, List.mem_map.mpr ⟨_, inEntries, rfl⟩, inner.1, rfl⟩

mutual

/-- Where names ascend in a directory, so do the locations below it. -/
theorem pairwise_placesIn : (entry : Entry) →
    (∀ inner, entry = .directory inner → Ascending inner) →
    (placesIn entry).Pairwise fun first second => first.1 < second.1
  | .directory inner, ascending => pairwise_placesBelow inner (ascending inner rfl)
  | .file, _ => .nil
  | .link, _ => .nil
  | .unreadable _, _ => .nil

/-- Where names ascend, so do the locations in the order of the walk. -/
theorem pairwise_placesBelow : (entries : List (Bytes × Entry)) → Ascending entries →
    (placesBelow entries).Pairwise fun first second => first.1 < second.1
  | [], _ => .nil
  | (name, entry) :: rest, ascending => by
    have inner := pairwise_placesIn entry fun inner same =>
      ascending.inner (List.mem_cons.mpr (.inl (by rw [same])))
    have others := pairwise_placesBelow rest ascending.tail
    -- Whatever lies at or below a later entry comes behind all that lies at or below this one.
    have later (location : Location) (place : Location × Entry)
        (member : place ∈ placesBelow rest) : name :: location < place.1 := by
      obtain ⟨other, inRest, further, split⟩ := exists_name_of_mem_placesBelow member
      rw [split]
      exact List.Lex.rel ((List.pairwise_cons.mp ascending.root).1 other inRest)
    rw [placesBelow, List.cons_append, List.pairwise_cons, List.pairwise_append,
      List.pairwise_map]
    refine ⟨?_, inner.imp fun before => List.Lex.cons before, others, ?_⟩
    · intro place member
      rcases List.mem_append.mp member with isBelow | isLater
      · obtain ⟨deeper, isDeeper, rfl⟩ := List.mem_map.mp isBelow
        obtain ⟨next, further, split⟩ :=
          List.exists_cons_of_ne_nil (ne_nil_of_mem_placesIn isDeeper)
        simp only [split]
        exact List.Lex.cons List.Lex.nil
      · exact later [] place isLater
    · intro place member other isLater
      obtain ⟨deeper, _, rfl⟩ := List.mem_map.mp member
      exact later deeper.1 other isLater

end

/-! ## The walk and the tree -/

/-- The walk meets the places of the tree in order, except those below a listed directory. -/
theorem walk_eq (listed : String → Bool) (entries : List (Bytes × Entry)) :
    walk listed entries =
      ((placesBelow (arranged entries)).filter fun place => reaches listed "" place.1).map
        fun place => visitOf listed (pathOf place.1) place.2 := by
  have visits := visitEach_eq listed "" (arranged entries)
  simp only [String.empty_append] at visits
  exact visits

/-- What a tree in order holds that is no directory is what the tree holds. -/
theorem mem_placesBelow_arranged_iff {entries : List (Bytes × Entry)} {location : Location}
    {entry : Entry} (leaf : ∀ original, inOrder original = entry ↔ original = entry) :
    (location, entry) ∈ placesBelow (arranged entries) ↔ Stands entries location entry := by
  rw [mem_placesBelow_iff, stands_arranged_iff]
  simp only [leaf, exists_eq_right]

/-- Only a regular file becomes one in order. -/
theorem inOrder_eq_file_iff (entry : Entry) : inOrder entry = .file ↔ entry = .file := by
  cases entry <;> simp [inOrder]

/-- Only a directory that cannot be read becomes one in order. -/
theorem inOrder_eq_unreadable_iff (cause : FileError) (entry : Entry) :
    inOrder entry = .unreadable cause ↔ entry = .unreadable cause := by
  cases entry <;> simp [inOrder]

/-- A configuration lists the paths of its list. -/
theorem lists_eq_true_iff (config : Config) (path : String) :
    config.lists path = true ↔ path ∈ config.ignore := by
  rw [← contains_eq_lists, List.contains_iff_mem]

/-- The walk goes to a location exactly when no directory on the way is listed. -/
theorem reaches_iff_reached (config : Config) (location : Location) :
    reaches config.lists "" location = true ↔ Reached config.ignore location := by
  rw [reaches_iff]
  simp only [String.empty_append, Reached, ← lists_eq_true_iff, Bool.not_eq_true]

/-- The walk goes through exactly when every directory that it has to read can be read. -/
theorem forall_fault_eq_none_iff (config : Config) (entries : List (Bytes × Entry)) :
    (∀ visit ∈ walk config.lists entries, visit.fault = none) ↔
      ∀ location cause, Stands entries location (.unreadable cause) →
        Reached config.ignore location → pathOf location ∈ config.ignore := by
  rw [walk_eq, List.forall_mem_map]
  constructor
  · intro readable location cause stands reached
    have member : (location, .unreadable cause) ∈ placesBelow (arranged entries) :=
      (mem_placesBelow_arranged_iff (inOrder_eq_unreadable_iff cause)).mpr stands
    have noFault := readable _ (List.mem_filter.mpr
      ⟨member, (reaches_iff_reached config location).mpr reached⟩)
    rw [← lists_eq_true_iff]
    by_contra unlisted
    simp [visitOf, unlisted] at noFault
  · rintro listed ⟨location, entry⟩ met
    obtain ⟨member, reached⟩ := List.mem_filter.mp met
    cases entry with
    | file => rfl
    | link => rfl
    | directory inner => rfl
    | unreadable cause =>
      have stands := (mem_placesBelow_arranged_iff (inOrder_eq_unreadable_iff cause)).mp member
      have isListed :=
        listed location cause stands ((reaches_iff_reached config location).mp reached)
      rw [← lists_eq_true_iff] at isListed
      simp [visitOf, isListed]

/-- A location of a stylesheet that a walk is to find: it is that of a regular file, its path ends
    like that of a stylesheet and is not listed, and no directory on the way is listed. -/
structure IsSheet (listed : List String) (entries : List (Bytes × Entry)) (location : Location) :
    Prop where
  /-- A regular file stands there. -/
  file : Stands entries location .file
  /-- The path ends like that of a stylesheet. -/
  named : ".css".toList <:+ (pathOf location).toList
  /-- The path is not listed. -/
  unlisted : pathOf location ∉ listed
  /-- No directory on the way is listed. -/
  reached : Reached listed location

/-- Whether the walk finds a stylesheet at a place. -/
def findsSheet (config : Config) (place : Location × Entry) : Bool :=
  (visitOf config.lists (pathOf place.1) place.2).isSheet && reaches config.lists "" place.1

/-- The walk finds a stylesheet at the places of regular files that it is to find. -/
theorem exists_findsSheet_iff (config : Config) (entries : List (Bytes × Entry))
    (location : Location) :
    (∃ entry, (location, entry) ∈ placesBelow (arranged entries) ∧
        findsSheet config (location, entry) = true) ↔
      IsSheet config.ignore entries location := by
  have stands : (location, Entry.file) ∈ placesBelow (arranged entries) ↔
      Stands entries location .file := mem_placesBelow_arranged_iff inOrder_eq_file_iff
  have found (entry : Entry) : findsSheet config (location, entry) = true ↔
      entry = .file ∧ ".css".toList <:+ (pathOf location).toList ∧ pathOf location ∉ config.ignore ∧
        Reached config.ignore location := by
    rw [findsSheet, Bool.and_eq_true, reaches_iff_reached, ← lists_eq_true_iff]
    cases entry with
    | file =>
      simp only [visitOf, Visit.isSheet, isSheetName, Bool.and_true, Bool.and_eq_true,
        Bool.not_eq_true', List.isSuffixOf_iff_suffix, true_and, Bool.not_eq_true]
      tauto
    | link => simp [visitOf, Visit.isSheet]
    | directory inner => simp [visitOf, Visit.isSheet]
    | unreadable cause => simp [visitOf, Visit.isSheet]
  constructor
  · rintro ⟨entry, member, finds⟩
    obtain ⟨rfl, named, unlisted, reached⟩ := (found entry).mp finds
    exact ⟨stands.mp member, named, unlisted, reached⟩
  · rintro ⟨file, named, unlisted, reached⟩
    exact ⟨.file, stands.mpr file, (found .file).mpr ⟨rfl, named, unlisted, reached⟩⟩

/-- The stylesheets that the walk meets are the ones it finds at the places of the tree. -/
theorem walk_sheets (config : Config) (entries : List (Bytes × Entry)) :
    ((walk config.lists entries).filter Visit.isSheet).map (·.path) =
      (((placesBelow (arranged entries)).filter (findsSheet config)).map Prod.fst).map pathOf := by
  rw [walk_eq, List.filter_map, List.filter_filter, List.map_map, List.map_map]
  rfl

/-- The value of a walk that goes through. -/
theorem sheetsBelow_ok_iff {files : FileSystem} {root : String} {config : Config}
    {entries : List (Bytes × Entry)} {sheets : List String}
    (reads : files.entries root = .ok entries) :
    (sheetsBelow files root config).run.value = .ok sheets ↔
      (∀ visit ∈ walk config.lists entries, visit.fault = none) ∧
      sheets = ((walk config.lists entries).filter Visit.isSheet).map (·.path) := by
  rw [sheetsBelow_value_iff]
  constructor
  · rintro (_ | _ | ⟨readsToo, readable⟩)
    obtain rfl := Except.ok.inj (reads.symm.trans readsToo)
    exact ⟨readable, rfl⟩
  · rintro ⟨readable, rfl⟩
    exact .walked reads readable

/-- Locations in ascending order are determined by which they are. -/
theorem locations_eq {locations others : List Location} (ascending : locations.Pairwise (· < ·))
    (othersAscending : others.Pairwise (· < ·))
    (same : ∀ location, location ∈ locations ↔ location ∈ others) : locations = others := by
  have distinct {locations : List Location} (ascending : locations.Pairwise (· < ·)) :
      locations.Nodup := by
    refine ascending.imp ?_
    rintro location _ before rfl
    exact List.lt_irrefl location before
  have permuted :=
    (List.perm_ext_iff_of_nodup (distinct ascending) (distinct othersAscending)).mpr same
  exact permuted.eq_of_pairwise (fun _ _ _ _ before after =>
    absurd after (List.lt_asymm before)) ascending othersAscending

/-- Discovery. In a tree in which no directory holds a name twice, the walk below the root ends well
    exactly when every directory that it has to read can be read: one that is neither listed nor
    below a listed one. It then gives the paths of the stylesheets that neither are listed nor lie
    below a listed directory, each location once and in the order of the walk. -/
theorem sheetsBelow_exact (files : FileSystem) (root : String) (config : Config)
    (entries : List (Bytes × Entry)) (sheets : List String)
    (reads : files.entries root = .ok entries) (distinct : DistinctNames entries) :
    (sheetsBelow files root config).run.value = .ok sheets ↔
      (∀ location cause, Stands entries location (.unreadable cause) →
        Reached config.ignore location → pathOf location ∈ config.ignore) ∧
      ∃ locations : List Location, locations.Pairwise (· < ·) ∧
        (∀ location, location ∈ locations ↔ IsSheet config.ignore entries location) ∧
        sheets = locations.map pathOf := by
  have ascending : (((placesBelow (arranged entries)).filter (findsSheet config)).map
      Prod.fst).Pairwise (· < ·) :=
    List.pairwise_map.mpr ((pairwise_placesBelow _ distinct.ascending).filter _)
  have members (location : Location) :
      location ∈ ((placesBelow (arranged entries)).filter (findsSheet config)).map Prod.fst ↔
        IsSheet config.ignore entries location := by
    rw [← exists_findsSheet_iff]
    simp only [List.mem_map, List.mem_filter, Prod.exists, exists_and_right, exists_eq_right]
  rw [sheetsBelow_ok_iff reads, forall_fault_eq_none_iff, walk_sheets]
  refine and_congr_right fun _ => ⟨?_, ?_⟩
  · rintro rfl
    exact ⟨_, ascending, members, rfl⟩
  · rintro ⟨locations, ascendingToo, membersToo, rfl⟩
    rw [locations_eq ascending ascendingToo fun location =>
      (members location).trans (membersToo location).symm]

/-- A directory next to a file whose name begins like its own. The directory holds a stylesheet and
    another directory, in which there is one that cannot be read. -/
def nestedEntries : List (Bytes × Entry) :=
  [(Utf8.encode "a.css", .file),
   (Utf8.encode "a", .directory
     [(Utf8.encode "old", .directory
        [(Utf8.encode "c.css", .file), (Utf8.encode "locked", .unreadable .notFound)]),
      (Utf8.encode "b.css", .file)]),
   (Utf8.encode "link.css", .link)]

/-- A file system with these entries below every root. -/
def nestedFiles : FileSystem where
  read _ := .error .notFound
  isDirectory _ := true
  entries _ := .ok nestedEntries

/-- Everything that stands in these entries. -/
theorem placesBelow_nestedEntries :
    ∃ old inner, placesBelow nestedEntries =
      [([Utf8.encode "a.css"], .file),
       ([Utf8.encode "a"], .directory inner),
       ([Utf8.encode "a", Utf8.encode "old"], .directory old),
       ([Utf8.encode "a", Utf8.encode "old", Utf8.encode "c.css"], .file),
       ([Utf8.encode "a", Utf8.encode "old", Utf8.encode "locked"], .unreadable .notFound),
       ([Utf8.encode "a", Utf8.encode "b.css"], .file),
       ([Utf8.encode "link.css"], .link)] ∧
      (old.map Prod.fst).Nodup ∧ (inner.map Prod.fst).Nodup :=
  ⟨_, _, rfl, by decide, by decide⟩

/-- The directory that cannot be read lies below a listed one and does not matter. -/
theorem sheetsBelow_exact_nested :
    DistinctNames nestedEntries ∧
    (sheetsBelow nestedFiles "." { ignore := ["a/old"] }).run.value =
      .ok ["a/b.css", "a.css"] := by
  obtain ⟨old, inner, places, oldDistinct, innerDistinct⟩ := placesBelow_nestedEntries
  have distinct : DistinctNames nestedEntries := by
    refine ⟨by decide, fun location entries stands => ?_⟩
    rw [← mem_placesBelow_iff, places] at stands
    simp only [List.mem_cons, Prod.mk.injEq, reduceCtorEq, and_false, Entry.directory.injEq,
      List.not_mem_nil, or_false, false_or] at stands
    rcases stands with ⟨-, rfl⟩ | ⟨-, rfl⟩
    · exact innerDistinct
    · exact oldDistinct
  have reached (location : Location) : Reached ["a/old"] location ↔
      reaches ({ ignore := ["a/old"] } : Config).lists "" location = true :=
    (reaches_iff_reached { ignore := ["a/old"] } location).symm
  refine ⟨distinct, (sheetsBelow_exact _ _ _ _ _ rfl distinct).mpr ⟨?_,
    [[Utf8.encode "a", Utf8.encode "b.css"], [Utf8.encode "a.css"]], by decide,
    fun location => ⟨?_, ?_⟩, by decide⟩⟩
  · intro location cause stands goesOn
    rw [← mem_placesBelow_iff, places] at stands
    simp only [List.mem_cons, Prod.mk.injEq, reduceCtorEq, and_false, List.not_mem_nil, or_false,
      false_or] at stands
    rw [reached, stands.1] at goesOn
    exact absurd goesOn (by decide)
  · intro member
    simp only [List.mem_cons, List.not_mem_nil, or_false] at member
    rcases member with rfl | rfl
    all_goals
      refine ⟨(mem_placesBelow_iff _ _ _).mp ?_, by decide, by decide, (reached _).mpr (by decide)⟩
      simp [places]
  · rintro ⟨stands, -, -, goesOn⟩
    rw [← mem_placesBelow_iff, places] at stands
    simp only [List.mem_cons, Prod.mk.injEq, reduceCtorEq, and_false, and_true, List.not_mem_nil,
      or_false, false_or] at stands
    rcases stands with rfl | rfl | rfl
    · decide
    · exact absurd ((reached _).mp goesOn) (by decide)
    · decide

end SelectorLint.Project
