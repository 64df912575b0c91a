namespace Overwrites

universe u v

variable {V : Type u} {R : Type v} (write : V → R → V)

-- Of two writings of one record only the later counts, whatever was written
-- between them.
structure LastCounts : Prop where
  again : ∀ value record, write (write value record) record = write value record
  between : ∀ value record other, write (write (write value record) other) record = write (write value other) record

variable {write}

theorem LastCounts.earlier (counts : LastCounts write) (others : List R) (value : V) (record : R) :
    write (others.foldl write (write value record)) record = write (others.foldl write value) record := by
  induction others generalizing value with
  | nil => exact counts.again value record
  | cons other rest ih =>
    simp only [List.foldl_cons]
    rw [← ih,counts.between,ih]

theorem LastCounts.repeated (counts : LastCounts write) {records : List R} {record : R} (later : record ∈ records) (value : V) :
    records.foldl write (write value record) = records.foldl write value := by
  obtain ⟨before,after,rfl⟩ := List.append_of_mem later
  simp only [List.foldl_append,List.foldl_cons,counts.earlier]

theorem LastCounts.rewritten (counts : LastCounts write) {first records : List R} (later : ∀ record ∈ first, record ∈ records) (value : V) :
    records.foldl write (first.foldl write value) = records.foldl write value := by
  induction first generalizing value with
  | nil => rfl
  | cons record rest ih =>
    have rewrite_rest := ih (fun other listed => later other (List.mem_cons_of_mem _ listed)) (write value record)
    exact rewrite_rest.trans (counts.repeated (later record List.mem_cons_self) value)

-- Writing the same records over again changes nothing.
theorem LastCounts.settled (counts : LastCounts write) (records : List R) (value : V) :
    records.foldl write (records.foldl write value) = records.foldl write value :=
  counts.rewritten (fun _ listed => listed) value

theorem LastCounts.through {S : Type v} (counts : LastCounts write) (part : S → R) : LastCounts (fun value record => write value (part record)) where
  again := fun value record => counts.again value (part record)
  between := fun value record other => counts.between value (part record) (part other)

end Overwrites
