import Mathlib.Data.List.Basic

/-!
# Records between delimiters

A record is written as its key, a separator, its value and a stop. Neither part is escaped, so a
sequence of records can be read in another way: it has one reading only if it is a single record
without a separator in its parts.
-/

namespace DelimitedRecords

variable {α : Type} (sep stop : α)

def record (e : List α × List α) : List α := e.1 ++ sep :: (e.2 ++ [stop])

def records (es : List (List α × List α)) : List α := es.flatMap (record sep stop)

variable {sep stop} {e : List α × List α} {es : List (List α × List α)}

theorem record_ne_nil : record sep stop e ≠ [] := by simp [record]

theorem records_eq_nil_iff : records sep stop es = [] ↔ es = [] := by
  cases es with
  | nil => simp [records]
  | cons e es => simp [records, record]

@[simp] theorem records_singleton : records sep stop [e] = record sep stop e := by simp [records]

/-- Several records read as one, whose value has a separator. -/
theorem records_cons_cons (e e' : List α × List α) (es : List (List α × List α)) :
    ∃ q, sep ∈ q ∧ records sep stop (e :: e' :: es) = record sep stop (e.1, q) := by
  induction es generalizing e e' with
  | nil => exact ⟨e.2 ++ stop :: (e'.1 ++ sep :: e'.2), by simp, by simp [records, record]⟩
  | cons e'' es ih =>
    obtain ⟨q, -, hq⟩ := ih e' e''
    refine ⟨e.2 ++ stop :: (e'.1 ++ sep :: q), by simp, ?_⟩
    have hcons : records sep stop (e :: e' :: e'' :: es) =
        record sep stop e ++ records sep stop (e' :: e'' :: es) := rfl
    rw [hcons, hq]
    simp [record]

theorem exists_record (h : es ≠ []) : ∃ e, records sep stop es = record sep stop e := by
  rcases es with _ | ⟨e, _ | ⟨e', es⟩⟩
  · exact absurd rfl h
  · exact ⟨e, records_singleton⟩
  · obtain ⟨q, -, hq⟩ := records_cons_cons e e' es
    exact ⟨_, hq⟩

/-- A record has one reading exactly if no part has a separator. -/
theorem record_unique_iff :
    (∀ e', record sep stop e' = record sep stop e → e' = e) ↔ sep ∉ e.1 ∧ sep ∉ e.2 := by
  obtain ⟨k, v⟩ := e
  constructor
  · intro h
    refine ⟨fun hk => ?_, fun hv => ?_⟩
    · obtain ⟨a, b, rfl⟩ := List.append_of_mem hk
      have heq := congrArg (fun e => e.1.length) (h (a, b ++ sep :: v) (by simp [record]))
      simp at heq
    · obtain ⟨a, b, rfl⟩ := List.append_of_mem hv
      have heq := congrArg (fun e => e.1.length) (h (k ++ sep :: a, b) (by simp [record]))
      simp at heq
  · rintro ⟨hk, hv⟩ ⟨k', v'⟩ heq
    rcases List.append_eq_append_iff.1 heq with ⟨as, hkey, hrest⟩ | ⟨bs, hkey, hrest⟩
    · cases as with
      | nil =>
        simp only [List.append_nil, List.nil_append, List.cons.injEq, true_and] at hkey hrest
        rw [hkey, List.append_cancel_right hrest]
      | cons a as =>
        obtain rfl : sep = a := (List.cons.inj hrest).1
        have hkey' : k = k' ++ sep :: as := hkey
        exact absurd (by simp [hkey']) hk
    · cases bs with
      | nil =>
        simp only [List.append_nil, List.nil_append, List.cons.injEq, true_and] at hkey hrest
        rw [hkey, List.append_cancel_right hrest]
      | cons b bs =>
        obtain ⟨rfl, htail⟩ := List.cons.inj hrest
        have hvalue : v ++ [stop] = bs ++ sep :: v' ++ [stop] := by simpa using htail
        exact absurd (by simp [List.append_cancel_right hvalue]) hv

/-- A record without separators in its parts is not read as several either. -/
theorem records_eq_record (hk : sep ∉ e.1) (hv : sep ∉ e.2)
    (h : records sep stop es = record sep stop e) : es = [e] := by
  have hunique := (@record_unique_iff α sep stop e).2 ⟨hk, hv⟩
  rcases es with _ | ⟨e₁, _ | ⟨e₂, es⟩⟩
  · exact absurd h.symm record_ne_nil
  · rw [records_singleton] at h
    rw [hunique e₁ h]
  · obtain ⟨q, hq, hrecord⟩ := @records_cons_cons α sep stop e₁ e₂ es
    have heq := hunique _ (hrecord.symm.trans h)
    exact absurd (heq ▸ hq) hv

end DelimitedRecords
