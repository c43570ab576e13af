import SelectorLint.Finding.Collection

/-!
# The order of a collection

The bytes of lines order them strictly and totally. A collection keeps its entries in
that order, each finding behind its own line, and every insertion preserves this. What an
insertion adds is then exact: the finding, unless one with its line is present.
-/

namespace SelectorLint

open Text

/-- Different lines have different bytes. -/
theorem Text.Utf8.encode_injective (first second : String)
    (same : Utf8.encode first = Utf8.encode second) : first = second := by
  rw [Utf8.encode, Utf8.encode, Array.toList_inj] at same
  exact String.toByteArray_inj.mp (ByteArray.ext same)

/-- No line comes before itself. -/
theorem lineBefore_irrefl (line : String) : lineBefore line line = false := by
  rw [lineBefore, decide_eq_false_iff_not]
  exact List.lt_irrefl _

/-- Coming before another line is transitive. -/
theorem lineBefore_trans {first second third : String} (before : lineBefore first second = true)
    (further : lineBefore second third = true) : lineBefore first third = true := by
  rw [lineBefore, decide_eq_true_eq] at *
  exact List.lt_trans before further

/-- Of two different lines one comes before the other. -/
theorem lineBefore_of_ne {first second : String} (different : first ≠ second)
    (notBefore : ¬lineBefore first second = true) : lineBefore second first = true := by
  rw [lineBefore, decide_eq_true_eq] at *
  rcases List.le_iff_lt_or_eq.mp (List.not_lt.mp notBefore) with before | same
  · exact before
  · exact absurd (Utf8.encode_injective _ _ same.symm) different

/-- A line that comes before another is a different line. -/
theorem ne_of_lineBefore {first second : String} (before : lineBefore first second = true) :
    first ≠ second := by
  rintro rfl
  rw [lineBefore_irrefl] at before
  exact Bool.noConfusion before

namespace Collection

/-- Entries in the order of their lines, each line once. -/
def Increasing (entries : List (String × Finding)) : Prop :=
  entries.Pairwise fun first second => lineBefore first.1 second.1 = true

/-- In increasing entries a finding is added unless its line is present, and every entry
    stays. -/
theorem mem_place {entries : List (String × Finding)} (increasing : Increasing entries)
    (line : String) (finding : Finding) (entry : String × Finding) :
    entry ∈ place line finding entries ↔
      entry ∈ entries ∨ entry = (line, finding) ∧ ∀ present ∈ entries, present.1 ≠ line := by
  induction entries with
  | nil => simp [place]
  | cons head rest inductionHypothesis =>
    obtain ⟨headFirst, restIncreasing⟩ := List.pairwise_cons.mp increasing
    rw [place]
    split
    · rename_i before
      have absent : ∀ present ∈ head :: rest, present.1 ≠ line := by
        intro present member
        rcases List.mem_cons.mp member with rfl | later
        · exact (ne_of_lineBefore before).symm
        · exact (ne_of_lineBefore (lineBefore_trans before (headFirst present later))).symm
      rw [List.mem_cons, or_comm]
      simp only [and_iff_left absent]
    · split
      · rename_i same
        have present : ¬∀ present ∈ head :: rest, present.1 ≠ line := by
          intro absent
          exact absent head List.mem_cons_self same.symm
        simp only [present, and_false, or_false]
      · rename_i different
        have headOther : head.1 ≠ line := fun same => different same.symm
        simp only [List.mem_cons, inductionHypothesis restIncreasing, forall_eq_or_imp,
          headOther, ne_eq, not_false_eq_true, true_and, or_assoc]

/-- Placing a finding keeps entries increasing. -/
theorem place_increasing {entries : List (String × Finding)} (increasing : Increasing entries)
    (line : String) (finding : Finding) : Increasing (place line finding entries) := by
  induction entries with
  | nil => exact List.pairwise_singleton _ _
  | cons head rest inductionHypothesis =>
    obtain ⟨headFirst, restIncreasing⟩ := List.pairwise_cons.mp increasing
    rw [place]
    split
    · rename_i before
      refine List.pairwise_cons.mpr ⟨?_, increasing⟩
      intro entry member
      rcases List.mem_cons.mp member with rfl | later
      · exact before
      · exact lineBefore_trans before (headFirst entry later)
    · rename_i notBefore
      split
      · exact increasing
      · rename_i different
        refine List.pairwise_cons.mpr ⟨?_, inductionHypothesis restIncreasing⟩
        intro entry member
        rcases (mem_place restIncreasing line finding entry).mp member with later | ⟨rfl, _⟩
        · exact headFirst entry later
        · exact lineBefore_of_ne different notBefore

/-- A collection as insertions leave it: increasing, with each finding behind its line. -/
structure Ordered (collection : Collection) : Prop where
  /-- The lines increase. -/
  increasing : Increasing collection.entries
  /-- Each line is that of its finding. -/
  keyed : ∀ entry ∈ collection.entries, entry.1 = entry.2.line

/-- A collection without findings is ordered. -/
theorem ordered_empty : Ordered {} := ⟨List.Pairwise.nil, by simp⟩

/-- Membership of a finding in an ordered collection is membership behind its line. -/
theorem Ordered.mem_toList_iff {collection : Collection} (ordered : collection.Ordered)
    (finding : Finding) :
    finding ∈ collection.toList ↔ (finding.line, finding) ∈ collection.entries := by
  rw [toList, List.mem_map]
  constructor
  · rintro ⟨⟨line, _⟩, member, rfl⟩
    have key : line = Finding.line _ := ordered.keyed _ member
    exact key ▸ member
  · intro member
    exact ⟨_, member, rfl⟩

/-- Insertion keeps a collection ordered. -/
theorem Ordered.insertIfNew {collection : Collection} (ordered : collection.Ordered)
    (finding : Finding) : (collection.insertIfNew finding).Ordered where
  increasing := place_increasing ordered.increasing _ _
  keyed entry member := by
    rcases (mem_place ordered.increasing _ _ entry).mp member with present | ⟨rfl, _⟩
    · exact ordered.keyed entry present
    · rfl

/-- An insertion adds its finding unless one with the same line is present. -/
theorem Ordered.mem_insertIfNew {collection : Collection} (ordered : collection.Ordered)
    (finding other : Finding) :
    other ∈ (collection.insertIfNew finding).toList ↔
      other ∈ collection.toList ∨
        other = finding ∧ ∀ present ∈ collection.toList, present.line ≠ finding.line := by
  have absent : (∀ present ∈ collection.entries, present.1 ≠ finding.line) ↔
      ∀ present ∈ collection.toList, present.line ≠ finding.line := by
    rw [toList, List.forall_mem_map]
    constructor
    · intro absent entry member
      exact ordered.keyed entry member ▸ absent entry member
    · intro absent entry member
      exact ordered.keyed entry member ▸ absent entry member
  rw [(ordered.insertIfNew finding).mem_toList_iff, ordered.mem_toList_iff,
    Collection.insertIfNew, mem_place ordered.increasing, absent]
  have sameEntry : (other.line, other) = (finding.line, finding) ↔ other = finding := by
    constructor
    · exact fun same => (Prod.mk.inj same).2
    · rintro rfl
      rfl
  rw [sameEntry]

/-- The findings of an ordered collection come in the order of their lines. -/
theorem Ordered.pairwise_toList {collection : Collection} (ordered : collection.Ordered) :
    collection.toList.Pairwise fun first second =>
      lineBefore first.line second.line = true := by
  rw [toList, List.pairwise_map]
  refine ordered.increasing.imp_of_mem ?_
  intro first second firstMember secondMember before
  rwa [← ordered.keyed first firstMember, ← ordered.keyed second secondMember]

/-- The findings alone determine the list of an ordered collection: its order is strict, so
    nothing is left to the order of insertions. -/
theorem Ordered.toList_eq {collection other : Collection} (ordered : collection.Ordered)
    (otherOrdered : other.Ordered)
    (sameMembers : ∀ finding, finding ∈ collection.toList ↔ finding ∈ other.toList) :
    collection.toList = other.toList := by
  have nodup {findings : List Finding} (increasing : findings.Pairwise fun first second =>
      lineBefore first.line second.line = true) : findings.Nodup := by
    refine increasing.imp ?_
    rintro first second before rfl
    exact ne_of_lineBefore before rfl
  have permuted := (List.perm_ext_iff_of_nodup (nodup ordered.pairwise_toList)
    (nodup otherOrdered.pairwise_toList)).mpr sameMembers
  refine permuted.eq_of_pairwise ?_ ordered.pairwise_toList otherOrdered.pairwise_toList
  intro first second _ _ before after
  exact absurd rfl (ne_of_lineBefore (lineBefore_trans before after))

end Collection

end SelectorLint
