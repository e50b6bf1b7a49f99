import FileLore.Proofs.Json.Record
import FileLore.Proofs.Store.Reading

/-!
# Contexts come back as they were stored

A context that has been stored is loaded as it was, because its artifact holds the
text that it is written as, and that text is read back as the same context. So storing
it once more writes the same bytes. What is said here of contexts in a cache is put
together with what holds of the JSON forms of all records (`records_roundTrip`).
-/

namespace FileLore

open Json (forms)

namespace Cache

variable {cache : Cache} {path target : String} {context : Context} {disk last : Disk}
  {log : List Operation}

/-- **A context that has been stored is loaded.** -/
theorem loadContext_of_store
    (h : (cache.storeContext path context).Ends disk log (.ok target) last) :
    (cache.loadContext path).run last = (.ok (some context), last) := by
  have hform : Context.ofText? context.storedText = some context :=
    Context.ofText?_form (List.mem_cons_of_mem _ (List.mem_singleton_self _)) context
  rw [loadContext_run, read_of_text (artifactText?_of_store h)]
  simp only [hform]

end Cache

/-- **Records come back as they were written.** In either form contexts, file records and markers
are read back, a file record as one that is not analyzed and a marker if 64 bits hold the number of
its line. A context that has been stored is loaded as it was, and storing what has been loaded
writes the same file again. Whatever is read from a text of any form is left as it is by writing
and reading. -/
theorem records_roundTrip :
    (∀ form ∈ forms,
      (∀ context : Context, Context.ofText? (form context.toJson) = some context) ∧
      (∀ record : FileRecord,
        FileRecord.ofText? (form record.toJson) = some { record with analyzed := false }) ∧
      ∀ marker : Marker, marker.line < 2 ^ 64 → Marker.ofText? (form marker.toJson) = some marker) ∧
    (∀ (cache : Cache) path context disk log target last,
      (cache.storeContext path context).Ends disk log (.ok target) last →
        ∃ loaded, (cache.loadContext path).run last = (.ok (some loaded), last) ∧
          loaded = context ∧
          ∀ log' target' last',
            (cache.storeContext path loaded).Ends last log' (.ok target') last' →
            target' = target ∧ ∃ bytes, last.standing target [] = some (.file bytes) ∧
              last'.standing target' [] = some (.file bytes)) ∧
    Settles Context.toJson Context.ofText? ∧ Settles FileRecord.toJson FileRecord.ofText? ∧
      Settles Marker.toJson Marker.ofText? := by
  refine ⟨fun form hform => ⟨Context.ofText?_form hform, FileRecord.ofText?_form hform,
    fun marker hline => Marker.ofText?_form hform marker ?_⟩,
    fun cache path context disk log target last h => ?_,
    Context.settles, FileRecord.settles, Marker.settles⟩
  · unfold Json.NumberSpelling.greatestWhole
    exact Nat.le_sub_one_of_lt hline
  · refine ⟨context, Cache.loadContext_of_store h, rfl, fun log' target' last' h' => ?_⟩
    obtain ⟨rfl, hfirst⟩ := Cache.standing_of_store h
    obtain ⟨rfl, hsecond⟩ := Cache.standing_of_store h'
    exact ⟨rfl, _, hfirst, hsecond⟩

/-- The greatest number of a line comes back, and so does a context with a quote and an empty
list. -/
theorem records_roundTrip_kb :
    Marker.ofText? (Json.compact (Marker.mk .todo "\"" (2 ^ 64 - 1) "\\").toJson) =
        some ⟨.todo, "\"", 2 ^ 64 - 1, "\\"⟩ ∧
      ∃ log last, ((Cache.mk "kb").storeContext "a" ⟨"a", ["\"\n"], [], ""⟩).Ends ⟨[], []⟩ log
          (.ok "kb/a_context.json") last ∧
        ((Cache.mk "kb").loadContext "a").run last =
          (.ok (some ⟨"a", ["\"\n"], [], ""⟩), last) := by
  obtain ⟨hforms, hstored, -⟩ := records_roundTrip
  refine ⟨(hforms _ (List.mem_cons_self ..)).2.2 _ (by decide), ?_⟩
  obtain ⟨log, h⟩ := FileTask.ends_run
    ((Cache.mk "kb").storeContext "a" ⟨"a", ["\"\n"], [], ""⟩) ⟨[], []⟩
  have hvalue : (((Cache.mk "kb").storeContext "a" ⟨"a", ["\"\n"], [], ""⟩).run ⟨[], []⟩).1 =
      .ok "kb/a_context.json" := by
    decide +kernel
  rw [hvalue] at h
  obtain ⟨loaded, hload, rfl, -⟩ := hstored _ _ _ _ _ _ _ h
  exact ⟨log, _, h, hload⟩

end FileLore
