import Mathlib.Data.Finset.Card
import SelectorLint.Proofs.Finding.Collection

/-!
# A run of insertions

Different findings can have one line, so a collection need not hold every finding that was inserted
into it. It holds, for every line that was inserted, the first finding with that line. One invariant
says this about the findings inserted so far; an insertion keeps it. All that can be asked of a
collection follows: what an insertion answers, how many findings there are, which they are and in
what order, and what of it is left to the order of the insertions.
-/

namespace SelectorLint.Collection

open Text

/-- Inserts findings one behind the other. Each insertion answers whether its finding was new. -/
def insertAll (collection : Collection) : List Finding → List Bool × Collection
  | [] => ([], collection)
  | finding :: rest =>
    let (present, next) := collection.containsThenInsertIfNew finding
    let (answers, last) := next.insertAll rest
    ((!present) :: answers, last)

/-- A collection of findings that were inserted in this order: an ordered one, with the first
    finding of every line and no other. -/
structure Gathers (collection : Collection) (inserted : List Finding) : Prop where
  /-- The findings are in the order of their lines. -/
  ordered : collection.Ordered
  /-- A finding is present exactly when no other one with its line was inserted earlier. -/
  first : ∀ finding, finding ∈ collection.toList ↔
    inserted.find? (fun other => other.line = finding.line) = some finding

namespace Gathers

variable {collection : Collection} {inserted : List Finding}

/-- Nothing was inserted into a collection without findings. -/
theorem empty : Gathers {} [] := ⟨ordered_empty, by simp [toList]⟩

/-- The lines of the findings are the lines that were inserted. -/
theorem mem_lines_iff (gathers : collection.Gathers inserted) (line : String) :
    line ∈ collection.toList.map Finding.line ↔ line ∈ inserted.map Finding.line := by
  constructor
  · intro present
    obtain ⟨finding, member, rfl⟩ := List.mem_map.mp present
    have found := (gathers.first finding).mp member
    exact List.mem_map_of_mem (List.mem_of_find?_eq_some found)
  · intro wasInserted
    obtain ⟨finding, member, rfl⟩ := List.mem_map.mp wasInserted
    -- The first finding with this line need not be the one that was named.
    have some : (inserted.find? fun other => other.line = finding.line).isSome :=
      List.find?_isSome.mpr ⟨finding, member, decide_eq_true rfl⟩
    obtain ⟨first, found⟩ := Option.isSome_iff_exists.mp some
    have sameLine : first.line = finding.line := by simpa using List.find?_some found
    refine List.mem_map.mpr ⟨first, (gathers.first first).mpr ?_, sameLine⟩
    rwa [sameLine]

/-- A line is present exactly when a finding with it was inserted. -/
theorem contains_iff (gathers : collection.Gathers inserted) (line : String) :
    collection.contains line = true ↔ line ∈ inserted.map Finding.line := by
  have lines : collection.toList.map Finding.line = collection.entries.map (·.1) := by
    rw [toList, List.map_map]
    exact List.map_congr_left fun entry member => (gathers.ordered.keyed entry member).symm
  rw [← gathers.mem_lines_iff, lines, contains, List.any_eq_true, List.mem_map]
  simp only [beq_iff_eq]

/-- An insertion keeps the first finding of every line. -/
theorem insertIfNew (gathers : collection.Gathers inserted) (finding : Finding) :
    (collection.insertIfNew finding).Gathers (inserted ++ [finding]) where
  ordered := gathers.ordered.insertIfNew finding
  first other := by
    have absent : (∀ present ∈ collection.toList, present.line ≠ finding.line) ↔
        inserted.find? (fun earlier => earlier.line = finding.line) = none := by
      have lines := gathers.mem_lines_iff finding.line
      simp only [List.mem_map] at lines
      simpa using not_congr lines
    rw [gathers.ordered.mem_insertIfNew, gathers.first, absent, List.find?_append,
      Option.or_eq_some_iff]
    constructor
    · rintro (earlier | ⟨rfl, none⟩)
      · exact .inl earlier
      · exact .inr ⟨none, by simp⟩
    · rintro (earlier | ⟨none, last⟩)
      · exact .inl earlier
      · have isFinding : other = finding := List.mem_singleton.mp (List.mem_of_find?_eq_some last)
        exact .inr ⟨isFinding, isFinding ▸ none⟩

/-- A run of insertions answers, for each finding, whether no finding with its line was inserted
    earlier, and leaves the first finding of every line. -/
theorem insertAll (gathers : collection.Gathers inserted) (findings : List Finding) :
    (collection.insertAll findings).1 = findings.mapIdx (fun place finding =>
      decide (finding.line ∉ (inserted ++ findings.take place).map Finding.line)) ∧
    (collection.insertAll findings).2.Gathers (inserted ++ findings) := by
  induction findings generalizing collection inserted with
  | nil =>
    refine ⟨rfl, ?_⟩
    rw [List.append_nil]
    exact gathers
  | cons finding rest inductionHypothesis =>
    obtain ⟨answers, last⟩ := inductionHypothesis (gathers.insertIfNew finding)
    have answer : (!collection.contains finding.line) =
        decide (finding.line ∉ inserted.map Finding.line) := by
      rw [Bool.eq_iff_iff, Bool.not_eq_true', decide_eq_true_eq, ← gathers.contains_iff,
        Bool.not_eq_true]
    have later (place : Nat) : inserted ++ [finding] ++ rest.take place =
        inserted ++ (finding :: rest).take (place + 1) := by
      rw [List.append_assoc, List.singleton_append, List.take_succ_cons]
    constructor
    · rw [Collection.insertAll, List.mapIdx_cons, List.take_zero, List.append_nil, ← answer]
      simp only [later] at answers
      rw [← answers]
      rfl
    · rw [List.append_assoc, List.singleton_append] at last
      exact last

/-- The lines of the findings increase by their bytes. -/
theorem pairwise_lines (gathers : collection.Gathers inserted) :
    (collection.toList.map Finding.line).Pairwise fun first second =>
      lineBefore first second = true :=
  List.pairwise_map.mpr gathers.ordered.pairwise_toList

/-- There are as many findings as different lines. -/
theorem size_eq (gathers : collection.Gathers inserted) :
    collection.size = (inserted.map Finding.line).toFinset.card := by
  have distinct : (collection.toList.map Finding.line).Nodup :=
    gathers.pairwise_lines.imp ne_of_lineBefore
  have lines : (collection.toList.map Finding.line).toFinset =
      (inserted.map Finding.line).toFinset := by
    ext line
    rw [List.mem_toFinset, List.mem_toFinset, gathers.mem_lines_iff]
  rw [← lines, List.toFinset_card_of_nodup distinct, List.length_map, toList, List.length_map,
    size]

/-- Which lines were inserted determines the lines of the findings. -/
theorem lines_eq {other : Collection} {others : List Finding}
    (gathers : collection.Gathers inserted) (otherGathers : other.Gathers others)
    (same : ∀ line, line ∈ inserted.map Finding.line ↔ line ∈ others.map Finding.line) :
    collection.toList.map Finding.line = other.toList.map Finding.line := by
  have permuted : (collection.toList.map Finding.line).Perm (other.toList.map Finding.line) := by
    refine (List.perm_ext_iff_of_nodup (gathers.pairwise_lines.imp ne_of_lineBefore)
      (otherGathers.pairwise_lines.imp ne_of_lineBefore)).mpr fun line => ?_
    rw [gathers.mem_lines_iff, otherGathers.mem_lines_iff, same]
  refine permuted.eq_of_pairwise ?_ gathers.pairwise_lines otherGathers.pairwise_lines
  intro first second _ _ before after
  exact absurd rfl (ne_of_lineBefore (lineBefore_trans before after))

end Gathers

/-- Any run of insertions into an empty collection. An insertion answers that its finding is new
    exactly when no finding with its line was inserted earlier. There are as many findings as
    different lines. They come in strictly increasing order of the bytes of their lines; their lines
    are the ones that were inserted; and each is the first that was inserted with its line. Another
    order of the insertions leaves the same lines. -/
theorem insertAll_exact (findings : List Finding) :
    (insertAll {} findings).1 = findings.mapIdx (fun place finding =>
      decide (finding.line ∉ (findings.take place).map Finding.line)) ∧
    (insertAll {} findings).2.size = (findings.map Finding.line).toFinset.card ∧
    ((insertAll {} findings).2.toList.Pairwise fun first second =>
      Utf8.encode first.line < Utf8.encode second.line) ∧
    (∀ line, line ∈ (insertAll {} findings).2.toList.map Finding.line ↔
      line ∈ findings.map Finding.line) ∧
    (∀ finding, finding ∈ (insertAll {} findings).2.toList ↔
      findings.find? (fun inserted => inserted.line = finding.line) = some finding) ∧
    ∀ permuted, permuted.Perm findings →
      (insertAll {} permuted).2.toList.map Finding.line =
        (insertAll {} findings).2.toList.map Finding.line := by
  obtain ⟨answers, gathers⟩ := Gathers.empty.insertAll findings
  refine ⟨answers, gathers.size_eq, ?_, gathers.mem_lines_iff, gathers.first, ?_⟩
  · exact gathers.ordered.pairwise_toList.imp of_decide_eq_true
  · intro permuted isPermuted
    refine (Gathers.empty.insertAll permuted).2.lines_eq gathers fun line => ?_
    exact (isPermuted.map Finding.line).mem_iff

/-- Two findings with one line, of which the one that comes first stays. Inserted the other way
    round the other one stays, with the same lines. -/
theorem insertAll_exact_one_line : ∃ first second third : Finding,
    first ≠ second ∧ first.line = second.line ∧
    (insertAll {} [first, third, second]).1 = [true, true, false] ∧
    first ∈ (insertAll {} [first, third, second]).2.toList ∧
    second ∈ (insertAll {} [second, first, third]).2.toList ∧
    (insertAll {} [second, first, third]).2.toList.map Finding.line =
      (insertAll {} [first, third, second]).2.toList.map Finding.line := by
  refine ⟨⟨⟨"a", ⟨1, 1⟩, ⟨1, 1⟩⟩, .duplicateSelector "b:2:2-2:2 - duplicate selector 'c".toList⟩,
    ⟨⟨"a:1:1-1:1 - duplicate selector 'b", ⟨2, 2⟩, ⟨2, 2⟩⟩, .duplicateSelector "c".toList⟩,
    ⟨⟨"a", ⟨10, 1⟩, ⟨10, 2⟩⟩, .idSelector⟩, by decide, by decide +kernel, ?_, ?_, ?_, ?_⟩
  · rw [(insertAll_exact _).1]
    decide +kernel
  · rw [(insertAll_exact _).2.2.2.2.1]
    decide +kernel
  · rw [(insertAll_exact _).2.2.2.2.1]
    decide +kernel
  · exact (insertAll_exact _).2.2.2.2.2 _ (by decide)

end SelectorLint.Collection
