import Mathlib.Algebra.Group.Nat.Defs
import Mathlib.Data.List.Induction
import Mathlib.Data.List.TakeWhile
import SelectorLint.Proofs.Project.Discovery

/-!
# Listed paths that a walk does not meet

Behind a walk that goes through, every listed path that it did not meet is warned about. The walk is
cut short by the same list: what lies below a listed directory is not met, so one listed path can
keep another from being met. Here a path is met when something stands at it and no directory on the
way is listed, which does not mention the walk.

Main statement: the warnings are the listed paths that are not met, in the order of the list and as
often as they are listed. A path below a listed one is never met: names in a directory hold no
slash, so a path is divided into names in one way only, and the listed path is that of a directory
on the way.
-/

namespace SelectorLint

open Files Log Text

/-! ## A slash in a name -/

namespace Text.Utf8

/-- A character that has begun with the first of several bytes. Whatever bytes follow, its number is
    beyond those of the characters of one byte. -/
structure Pending.Wide (pending : Pending) : Prop where
  /-- A byte is still needed. -/
  owed : 0 < pending.owed
  /-- It carries six bits of the number: no less than `low`, -/
  low : 0x80 ≤ pending.low.toNat
  /-- and no more than a continuation can carry. -/
  high : pending.high.toNat ≤ 0xBF
  /-- The least number that can come of it. -/
  least : 0x80 ≤ (pending.bits * 64 + pending.low.toNat % 64) * 64 ^ (pending.owed - 1)

/-- A byte that begins a character of several bytes begins one with a great number. -/
theorem Pending.wide_of_ofFirst? {byte : UInt8} {pending : Pending}
    (begins : ofFirst? byte = some pending) : pending.Wide := by
  simp only [ofFirst?] at begins
  split_ifs at begins
  all_goals
    obtain rfl := Option.some.inj begins
    constructor <;> simp <;> omega

/-- What has been read of bytes among which there is no slash. -/
structure Progress.Slashless (progress : Progress) : Prop where
  /-- A character that has begun does not become a slash. -/
  pending : ∀ pending ∈ progress.pending, pending.Wide
  /-- No slash has been read. -/
  pieces : some '/' ∉ progress.pieces

/-- Only the number of the slash gives the slash. -/
theorem ofNat_ne_slash {number : Nat} (other : number ≠ Tree.slash.toNat) :
    Char.ofNat number ≠ '/' := by
  by_cases valid : number.isValidChar
  · rw [Char.ofNat, dif_pos valid]
    intro same
    exact other (congrArg Char.toNat same)
  · rw [Char.ofNat, dif_neg valid]
    decide

/-- A byte other than the slash that stands where a character begins reads no slash. -/
theorem Progress.Slashless.first {progress : Progress} (slashless : progress.Slashless)
    {byte : UInt8} (other : byte ≠ Tree.slash) : (progress.first byte).Slashless := by
  have noSlash : byte.toNat ≠ Tree.slash.toNat := fun same => other (UInt8.toNat_inj.mp same)
  rw [Progress.first]
  split
  · refine ⟨by simp, ?_⟩
    simpa using ⟨(ofNat_ne_slash noSlash).symm, slashless.pieces⟩
  · split
    · rename_i pending begins
      exact ⟨by simpa using Pending.wide_of_ofFirst? begins, slashless.pieces⟩
    · exact ⟨by simp, by simpa using slashless.pieces⟩

/-- A byte other than the slash reads no slash: it is a character of its own, or part of one whose
    number is too great. -/
theorem Progress.Slashless.next {progress : Progress} (slashless : progress.Slashless)
    {byte : UInt8} (other : byte ≠ Tree.slash) : (progress.next byte).Slashless := by
  rw [Progress.next]
  split
  · exact slashless.first other
  · rename_i pending begun
    have wide : pending.Wide := slashless.pending pending begun
    split
    · rename_i fits
      have bits : pending.bits * 64 + pending.low.toNat % 64 ≤
          pending.bits * 64 + byte.toNat % 64 := by
        have low : pending.low.toNat ≤ byte.toNat := fits.1
        have high : byte.toNat ≤ pending.high.toNat := fits.2
        have sixBits := wide.low
        have noMore := wide.high
        omega
      have least := Nat.le_trans wide.least (Nat.mul_le_mul_right _ bits)
      split
      · rename_i last
        rw [last] at least
        refine ⟨by simp, ?_⟩
        have noSlash : pending.bits * 64 + byte.toNat % 64 ≠ Tree.slash.toNat := by
          have slash : Tree.slash.toNat = 0x2F := rfl
          omega
        simpa using ⟨(ofNat_ne_slash noSlash).symm, slashless.pieces⟩
      · rename_i further
        have owed : 0 < pending.owed - 1 := by
          have positive := wide.owed
          omega
        have exponent : pending.owed - 1 = pending.owed - 1 - 1 + 1 := by omega
        refine ⟨?_, slashless.pieces⟩
        intro following isFollowing
        obtain rfl := Option.some.inj isFollowing
        refine ⟨owed, Nat.le_refl 0x80, Nat.le_refl 0xBF, ?_⟩
        rw [exponent, Nat.pow_succ, ← Nat.mul_assoc, Nat.mul_right_comm] at least
        simpa using least
    · refine Progress.Slashless.first ⟨by simp, ?_⟩ other
      simpa using slashless.pieces

/-- A name without the byte of the slash is read as a text without a slash, also where it is no
    proper text. -/
theorem slash_not_mem_decodeLossy {bytes : Bytes} (without : Tree.slash ∉ bytes) :
    '/' ∉ decodeLossy bytes := by
  have slashless : (bytes.foldl Progress.next {}).Slashless := by
    induction bytes using List.reverseRecOn with
    | nil => exact ⟨by simp, by simp⟩
    | append_singleton front byte inductionHypothesis =>
      rw [List.mem_append, not_or, List.mem_singleton] at without
      rw [List.foldl_append]
      exact (inductionHypothesis without.1).next (Ne.symm without.2)
  have none : some '/' ∉ pieces bytes := by
    simp only [pieces]
    split
    · simpa using slashless.pieces
    · simpa using slashless.pieces
  rw [decodeLossy, List.mem_map]
  rintro ⟨piece, member, isSlash⟩
  cases piece with
  | none => exact absurd isSlash (by decide)
  | some c =>
    obtain rfl : c = '/' := isSlash
    exact none member

end Text.Utf8

namespace Project

/-- No name of a tree holds a slash. -/
def SlashlessNames (entries : List (Bytes × Entry)) : Prop :=
  ∀ location entry, Stands entries location entry → ∀ name ∈ location, Tree.slash ∉ name

instance (entries : List (Bytes × Entry)) : Decidable (SlashlessNames entries) :=
  decidable_of_iff (∀ place ∈ placesBelow entries, ∀ name ∈ place.1, Tree.slash ∉ name) <| by
    simp only [SlashlessNames, Prod.forall, mem_placesBelow_iff]

/-- A path below another one passes through it: the way to the one begins with the way to the
    other. -/
theorem exists_directory_of_pathOf {location : Location} {above rest : String}
    (nonempty : location ≠ []) (slashless : ∀ name ∈ location, Tree.slash ∉ name)
    (below : pathOf location = above ++ "/" ++ rest) :
    ∃ directory, directory ≠ [] ∧ directory <+: location ∧ directory ≠ location ∧
      pathOf directory = above := by
  have slash : "/".toList = ['/'] := by decide
  have path (names : Location) : (pathOf names).toList =
      ['/'].intercalate (names.map fun name => (nameText name).toList) := by
    rw [pathOf, String.toList_intercalate, List.map_map, slash]
    rfl
  -- The names on the way are the pieces between the slashes of the path.
  have pieces : location.map (fun name => (nameText name).toList) =
      above.toList.splitOn '/' ++ rest.toList.splitOn '/' := by
    have divided := congrArg (List.splitOn '/') (path location)
    rw [List.splitOn_intercalate] at divided
    · rw [← divided, below, String.toList_append, String.toList_append, slash, List.append_assoc,
        List.singleton_append, List.splitOn_append_cons_self]
    · rw [List.forall_mem_map]
      intro name member
      rw [nameText, String.toList_ofList]
      exact Utf8.slash_not_mem_decodeLossy (slashless name member)
    · simpa using nonempty
  obtain ⟨directory, further, rfl, front, back⟩ := List.map_eq_append_iff.mp pieces
  refine ⟨directory, ?_, List.prefix_append directory further, ?_, ?_⟩
  · rintro rfl
    exact List.splitOn_ne_nil '/' above.toList front.symm
  · intro whole
    have empty : further = [] := List.self_eq_append_right.mp whole
    rw [empty] at back
    exact List.splitOn_ne_nil '/' rest.toList back.symm
  · rw [← String.toList_inj, path, front, List.intercalate_splitOn]

/-! ## The warnings of a walk -/

/-- A path that a walk meets: something stands there, and no directory on the way to it is
    listed. -/
def Met (listed : List String) (entries : List (Bytes × Entry)) (path : String) : Prop :=
  ∃ location entry, Stands entries location entry ∧ Reached listed location ∧
    pathOf location = path

/-- The places of a tree decide whether a path is met. -/
theorem exists_place_iff_met (config : Config) (entries : List (Bytes × Entry)) (path : String) :
    (∃ place ∈ placesBelow entries, reaches config.lists "" place.1 = true ∧
      pathOf place.1 = path) ↔ Met config.ignore entries path := by
  simp only [Prod.exists, mem_placesBelow_iff, reaches_iff_reached, Met]

instance (listed : List String) (entries : List (Bytes × Entry)) (path : String) :
    Decidable (Met listed entries path) :=
  decidable_of_iff _ (exists_place_iff_met { ignore := listed } entries path)

/-- Putting a tree in order does not change what is met. -/
theorem met_arranged_iff {listed : List String} {entries : List (Bytes × Entry)} {path : String} :
    Met listed (arranged entries) path ↔ Met listed entries path := by
  simp only [Met, stands_arranged_iff]
  constructor
  · rintro ⟨location, _, ⟨original, stands, _⟩, reached, same⟩
    exact ⟨location, original, stands, reached, same⟩
  · rintro ⟨location, original, stands, reached, same⟩
    exact ⟨location, inOrder original, ⟨original, stands, rfl⟩, reached, same⟩

/-- The listed paths among the visits of a walk are the listed paths that are met. -/
theorem mem_listed_visits_iff (config : Config) (entries : List (Bytes × Entry)) (path : String) :
    path ∈ ((walk config.lists entries).filter (·.isListed)).map (·.path) ↔
      path ∈ config.ignore ∧ Met config.ignore entries path := by
  rw [← met_arranged_iff, ← exists_place_iff_met, ← lists_eq_true_iff config, walk_eq,
    List.filter_map, List.map_map]
  simp only [List.mem_map, List.mem_filter, Function.comp_apply, visitOf]
  constructor
  · rintro ⟨place, ⟨⟨member, reached⟩, isListed⟩, rfl⟩
    exact ⟨isListed, place, member, reached, rfl⟩
  · rintro ⟨isListed, place, member, reached, rfl⟩
    exact ⟨place, ⟨⟨member, reached⟩, isListed⟩, rfl⟩

/-- A walk that goes through logs what it passed over, and then warns. -/
theorem log_sheetsBelow {files : FileSystem} {root : String} {config : Config}
    {entries : List (Bytes × Entry)} (reads : files.entries root = .ok entries)
    (readable : ∀ visit ∈ walk config.lists entries, visit.fault = none) :
    (sheetsBelow files root config).run.log =
      (((walk config.lists entries).filter (·.isListed)).map (·.path)).map Event.ignoring ++
        (config.ignore.filter fun path => ¬Met config.ignore entries path).map
          Event.unmatchedIgnore := by
  have noEnd : (walk config.lists entries).findSome? Visit.error? = none :=
    List.findSome?_eq_none_iff.mpr fun visit member =>
      visit.error?_eq_none_iff.mpr (readable visit member)
  have whole : (walk config.lists entries).takeWhile (fun visit => visit.fault.isNone) =
      walk config.lists entries :=
    List.takeWhile_eq_self_iff.mpr fun visit member => by rw [readable visit member]; rfl
  have unmatched : (config.ignore.filter fun path =>
      !(((walk config.lists entries).filter (·.isListed)).map (·.path)).contains path) =
      config.ignore.filter fun path => ¬Met config.ignore entries path := by
    refine List.filter_congr fun path member => ?_
    rw [Bool.eq_iff_iff, Bool.not_eq_true', decide_eq_true_eq, ← Bool.not_eq_true,
      List.contains_iff_mem, mem_listed_visits_iff, and_iff_right member]
  have log : (sheetsBelow files root config).run.log =
      (gather config.ignore entries).log ++ [] := by
    simp only [sheetsBelow, reads]
    rfl
  rw [log, List.append_nil, gather, contains_eq_lists]
  simp only [noEnd, whole, unmatched]

/-- Warnings. A walk below a root that goes through warns about the listed paths that are not met,
    in the order of the list and each as often as it is listed, and about nothing else. So a listed
    path that is met is not warned about, however often it is listed; and where names hold no slash,
    a listed path that leads through another listed one always is. -/
theorem sheetsBelow_warnings (files : FileSystem) (root : String) (config : Config)
    (entries : List (Bytes × Entry)) (sheets : List String)
    (reads : files.entries root = .ok entries)
    (succeeds : (sheetsBelow files root config).run.value = .ok sheets) :
    (sheetsBelow files root config).run.shown (some .warn) =
      (config.ignore.filter fun path => ¬Met config.ignore entries path).map
        Event.unmatchedIgnore ∧
    (∀ path, Met config.ignore entries path →
      .unmatchedIgnore path ∉ (sheetsBelow files root config).run.log) ∧
    (SlashlessNames entries → ∀ above ∈ config.ignore, ∀ rest,
      above ++ "/" ++ rest ∈ config.ignore →
        .unmatchedIgnore (above ++ "/" ++ rest) ∈ (sheetsBelow files root config).run.log) := by
  have log := log_sheetsBelow reads ((sheetsBelow_ok_iff reads).mp succeeds).1
  have warned (path : String) :
      .unmatchedIgnore path ∈ (sheetsBelow files root config).run.log ↔
        path ∈ config.ignore ∧ ¬Met config.ignore entries path := by
    rw [log]
    simp
  refine ⟨?_, ?_, ?_⟩
  · rw [Logged.shown, log, List.filter_append, List.filter_eq_nil_iff.mpr,
      List.filter_eq_self.mpr, List.nil_append]
    · rw [List.forall_mem_map]
      exact fun _ _ => rfl
    · rw [List.forall_mem_map]
      exact fun _ _ => Bool.false_ne_true
  · intro path met isWarned
    exact ((warned path).mp isWarned).2 met
  · intro slashless above isListed rest member
    rw [warned]
    refine ⟨member, ?_⟩
    rintro ⟨location, entry, stands, reached, path⟩
    obtain ⟨directory, nonempty, onTheWay, proper, same⟩ :=
      exists_directory_of_pathOf stands.ne_nil (slashless location entry stands) path
    exact reached directory nonempty onTheWay proper (same ▸ isListed)

/-- A listed directory with a listed file in it, a link that is listed twice, and a path that is
    listed twice and where nothing stands. -/
def nestedConfig : Config where
  ignore := ["no.css", "link.css", "a/old", "a/old/c.css", "link.css", "no.css"]

/-- The file below the listed directory is there and is warned about. -/
theorem sheetsBelow_warnings_nested :
    SlashlessNames nestedEntries ∧
    Stands nestedEntries [Utf8.encode "a", Utf8.encode "old", Utf8.encode "c.css"] .file ∧
    (∃ sheets, (sheetsBelow nestedFiles "." nestedConfig).run.value = .ok sheets) ∧
    (sheetsBelow nestedFiles "." nestedConfig).run.shown (some .warn) =
      [.unmatchedIgnore "no.css", .unmatchedIgnore "a/old/c.css", .unmatchedIgnore "no.css"] ∧
    .unmatchedIgnore "link.css" ∉ (sheetsBelow nestedFiles "." nestedConfig).run.log ∧
    .unmatchedIgnore "a/old/c.css" ∈ (sheetsBelow nestedFiles "." nestedConfig).run.log := by
  obtain ⟨_, _, places, _⟩ := placesBelow_nestedEntries
  have slashless : SlashlessNames nestedEntries := by decide
  have stands : Stands nestedEntries
      [Utf8.encode "a", Utf8.encode "old", Utf8.encode "c.css"] .file := by
    rw [← mem_placesBelow_iff, places]
    simp
  -- The directory that cannot be read lies below a listed one.
  have readable : ∀ visit ∈ walk nestedConfig.lists nestedEntries, visit.fault = none := by
    rw [forall_fault_eq_none_iff]
    intro location cause unreadable reached
    rw [← mem_placesBelow_iff, places] at unreadable
    simp only [List.mem_cons, Prod.mk.injEq, reduceCtorEq, and_false, List.not_mem_nil, or_false,
      false_or] at unreadable
    rw [unreadable.1, ← reaches_iff_reached] at reached
    exact absurd reached (by decide)
  have succeeds : (sheetsBelow nestedFiles "." nestedConfig).run.value = .ok _ :=
    (sheetsBelow_ok_iff rfl).mpr ⟨readable, rfl⟩
  obtain ⟨warnings, silent, below⟩ := sheetsBelow_warnings _ _ _ nestedEntries _ rfl succeeds
  refine ⟨slashless, stands, ⟨_, succeeds⟩, ?_, ?_, ?_⟩
  · rw [warnings]
    decide +kernel
  · exact silent "link.css" (by decide +kernel)
  · exact below slashless "a/old" (by decide) "c.css" (by decide)

end Project

end SelectorLint
