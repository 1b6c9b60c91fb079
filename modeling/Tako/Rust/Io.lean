import Tako.Theory.Async

/-!
# Readers and writers

The loops of `std::io` over a writer that takes a part of what it is given, and over a reader that
gives a part of what there is. Each call is a step of its own, so that others take theirs in
between. A call that is interrupted is made again at once: it is not told apart from the next one.
-/

namespace Tako.Io

open Async

variable {σ : Type}

/-- `Write::write_all`. There are no more calls than bytes. -/
def writeAll (write : List UInt8 → σ → Except String Nat × σ) :
    Nat → List UInt8 → Async σ (Except String Unit)
  | 0, _ => pure (.ok ())
  | fuel + 1, bytes =>
    if bytes = [] then pure (.ok ())
    else do
      match ← atomically (write bytes) with
      | .error e => pure (.error e)
      | .ok 0 => pure (.error "failed to write whole buffer")
      | .ok (n + 1) => writeAll write fuel (bytes.drop (n + 1))

/-- `Read::read_to_end`, with what has been read before. -/
def readToEnd (read : Nat → σ → Except String (List UInt8) × σ) :
    Nat → List UInt8 → Async σ (Except String (List UInt8))
  | 0, bytes => pure (.ok bytes)
  | fuel + 1, bytes => do
    match ← atomically (read bytes.length) with
    | .error e => pure (.error e)
    | .ok [] => pure (.ok bytes)
    | .ok (b :: more) => readToEnd read fuel (bytes ++ b :: more)

/-! ## Alone -/

theorem writeAll_nil (write : List UInt8 → σ → Except String Nat × σ) (fuel : Nat) :
    writeAll write fuel [] = pure (.ok ()) := by
  cases fuel with
  | zero => rfl
  | succ fuel => rw [writeAll, if_pos rfl]

/-- A writer that takes everything. -/
theorem exec_writeAll {write : List UInt8 → σ → Except String Nat × σ} {bytes : List UInt8}
    {s : σ} (h : (write bytes s).1 = .ok bytes.length) (hne : bytes ≠ []) :
    (writeAll write bytes.length bytes).exec s = some (.ok (), (write bytes s).2) := by
  obtain ⟨n, hn⟩ := Nat.exists_eq_succ_of_ne_zero (List.length_pos_iff.2 hne).ne'
  rw [hn] at h
  rw [hn, writeAll, if_neg hne, exec_bind, exec_atomically, Option.bind_some, h]
  simp only [← Nat.succ_eq_add_one, ← hn, List.drop_length, writeAll_nil, exec_pure]

/-! ## Beside others -/

theorem writeAll_prompt (write : List UInt8 → σ → Except String Nat × σ) (fuel : Nat)
    (bytes : List UInt8) : (writeAll write fuel bytes).Prompt := by
  induction fuel generalizing bytes with
  | zero => exact .done _
  | succ fuel ih =>
    rw [writeAll]
    split
    · exact .done _
    · refine .atomically_bind fun r => ?_
      split
      · exact .done _
      · exact .done _
      · exact ih _

/-- How a loop ends. -/
def Ends {α : Type} (Done : α → σ → Prop) (Failed : σ → Prop) : Except String α → σ → Prop
  | .ok a => Done a
  | .error _ => Failed

variable {R G D : σ → σ → Prop} {s : σ}

/-- `Left rest` holds while `rest` is still to be written: the others keep it, and a call leaves
less. `Failed` holds after a call that fails. -/
theorem writeAll_safe {write : List UInt8 → σ → Except String Nat × σ}
    (Left : List UInt8 → σ → Prop) (Failed : σ → Prop) (hR : ∀ s, R s s) (hD : ∀ s, D s s)
    (hleft : ∀ {rest s t}, Left rest s → R s t → Left rest t)
    (hfailed : ∀ {s t}, Failed s → R s t → Failed t)
    (hwrite : ∀ {rest s}, rest ≠ [] → Left rest s → G s (write rest s).2 ∧
      (∀ n, (write rest s).1 = .ok (n + 1) → Left (rest.drop (n + 1)) (write rest s).2) ∧
      ((∀ n, (write rest s).1 ≠ .ok (n + 1)) → Failed (write rest s).2))
    (fuel : Nat) (bytes : List UInt8) (hfuel : bytes.length ≤ fuel) (h : Left bytes s) :
    (writeAll write fuel bytes).Safe R G D (Ends (fun _ => Left []) Failed) s := by
  induction fuel generalizing bytes s with
  | zero =>
    obtain rfl : bytes = [] := List.length_eq_zero_iff.1 (Nat.le_zero.1 hfuel)
    exact .pure fun t ht => hleft h ht
  | succ fuel ih =>
    rw [writeAll]
    split
    · next hnil =>
      subst hnil
      exact .pure fun t ht => hleft h ht
    · next hne =>
      refine .bind (P := fun r t => (∀ n, r = .ok (n + 1) → Left (bytes.drop (n + 1)) t) ∧
        ((∀ n, r ≠ .ok (n + 1)) → Failed t)) hR ?_ fun r t ht => ?_
      · refine .atomically fun t ht => ?_
        obtain ⟨hG, hmore, hstop⟩ := hwrite hne (hleft h ht)
        exact ⟨hD t, hG, fun u hu => ⟨fun n hn => hleft (hmore n hn) hu,
          fun hn => hfailed (hstop hn) hu⟩⟩
      · split
        · exact .pure fun u hu => hfailed (ht.2 (by simp)) hu
        · exact .pure fun u hu => hfailed (ht.2 (by simp)) hu
        · next n =>
          refine ih _ ?_ (ht.1 n rfl)
          rw [List.length_drop]
          have hlen := List.length_pos_iff.2 hne
          omega

/-- `Read bytes` holds once `bytes` have been read. There are fewer calls than the fuel allows, as
each one reads something of what is `total` long, or the last one nothing. -/
theorem readToEnd_safe {read : Nat → σ → Except String (List UInt8) × σ}
    (Read Whole : List UInt8 → σ → Prop) (Failed : σ → Prop) (total : Nat) (hR : ∀ s, R s s)
    (hD : ∀ s, D s s) (hread : ∀ {bytes s t}, Read bytes s → R s t → Read bytes t)
    (hwhole : ∀ {bytes s t}, Whole bytes s → R s t → Whole bytes t)
    (hfailed : ∀ {s t}, Failed s → R s t → Failed t)
    (hlen : ∀ {bytes s}, Read bytes s → bytes.length ≤ total)
    (hstep : ∀ {bytes s}, Read bytes s → G s (read bytes.length s).2 ∧
      Ends (fun more t => if more = [] then Whole bytes t else Read (bytes ++ more) t) Failed
        (read bytes.length s).1 (read bytes.length s).2)
    (fuel : Nat) (bytes : List UInt8) (hfuel : total < fuel + bytes.length) (h : Read bytes s) :
    (readToEnd read fuel bytes).Safe R G D (Ends Whole Failed) s := by
  induction fuel generalizing bytes s with
  | zero =>
    have hle := hlen h
    omega
  | succ fuel ih =>
    rw [readToEnd]
    refine .bind (P := Ends (fun more t => if more = [] then Whole bytes t
      else Read (bytes ++ more) t) Failed) hR ?_ fun r t ht => ?_
    · refine .atomically fun t ht => ?_
      obtain ⟨hG, hends⟩ := hstep (hread h ht)
      refine ⟨hD t, hG, fun u hu => ?_⟩
      revert hends
      cases (read bytes.length t).1 with
      | error e => exact fun hends => hfailed hends hu
      | ok more =>
        simp only [Ends]
        split
        · exact fun hends => hwhole hends hu
        · exact fun hends => hread hends hu
    · split
      · exact .pure fun u hu => hfailed ht hu
      · exact .pure fun u hu => hwhole ht hu
      · next b more =>
        refine ih _ ?_ ht
        rw [List.length_append, List.length_cons]
        omega

end Tako.Io
