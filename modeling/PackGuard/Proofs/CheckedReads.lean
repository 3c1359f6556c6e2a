import PackGuard.Proofs.ChecksumBurst
import PackGuard.Proofs.RegisterAccess

/-!
Readings with checksums from a chip whose answers are disturbed by bursts. Whatever is damaged does
not match its checksum, so a reading ends with the first attempt that arrives whole or is refused,
and delivers nothing but what the registers hold.
-/

namespace PackGuard.Chip

namespace Device

variable (d : Device) (r : Register) (count t : Nat)

def flips (position : Nat) : UInt8 := d.garbled t position 0

theorem garbled_eq (position : Nat) (byte : UInt8) :
    d.garbled t position byte = byte ^^^ d.flips t position := by
  have absorbed (hits : List Corruption) (a b : UInt8) :
      hits.foldl (fun byte c => byte ^^^ c.mask) (a ^^^ b) =
        a ^^^ hits.foldl (fun byte c => byte ^^^ c.mask) b := by
    induction hits generalizing b with
    | nil => rfl
    | cons c rest ih => rw [List.foldl_cons, List.foldl_cons, UInt8.xor_assoc, ih]
  rw [flips, garbled, garbled, ← absorbed, UInt8.xor_zero]

/-- Every byte of an answer is disturbed together with its checksum by at most one burst. -/
def Bursts : Prop :=
  ∀ i < count, Checksum.Burst [d.flips t (2 * i), d.flips t (2 * i + 1)]

def Clean : Prop := ∀ i < count, d.flips t (2 * i) = 0 ∧ d.flips t (2 * i + 1) = 0

instance : Decidable (d.Clean count t) := inferInstanceAs (Decidable (∀ _, _))

def frame : Frame count :=
  Vector.ofFn fun i => d.garbled t i ({ d with pointer := r }.answerByte i)

def contents : Vector UInt8 count := Vector.ofFn fun i => d.get (r + UInt8.ofNat i)

def heading (i : Nat) : List UInt8 := if i = 0 then [addressByte d.address true] else []

variable {d r count t} {i : Nat}

theorem frame_byte (checked : d.checked = true) (inside : i < count) :
    (d.frame r count t)[2 * i] = d.get (r + UInt8.ofNat i) ^^^ d.flips t (2 * i) := by
  simp [frame, garbled_eq, answerByte, checked, get_eq]

theorem frame_checksum (checked : d.checked = true) (inside : i < count) :
    (d.frame r count t)[2 * i + 1] =
      Checksum.ofBytes (d.heading i ++ [d.get (r + UInt8.ofNat i)]) ^^^ d.flips t (2 * i + 1) := by
  have half : (2 * i + 1) / 2 = i := by omega
  have odd : (2 * i + 1) % 2 = 1 := by omega
  simp [frame, garbled_eq, answerByte, checked, get_eq, half, odd, heading]
  split <;> rfl

theorem intact_frame (checked : d.checked = true) (bursts : d.Bursts count t) :
    (d.frame r count t).intact d.address = true ↔ d.Clean count t := by
  have expected (i : Fin count) : (d.frame r count t).expected d.address i =
      Checksum.ofBytes (d.heading i ++ [(d.frame r count t)[2 * i.val]]) := by
    rw [Frame.expected, heading]
    split <;> rfl
  rw [Frame.intact, List.all_eq_true]
  simp only [List.mem_finRange, forall_const, beq_iff_eq, expected, frame_checksum checked (Fin.isLt _),
    frame_byte checked (Fin.isLt _), Checksum.matches_iff_of_burst (bursts _ (Fin.isLt _))]
  exact Fin.forall_iff

theorem bytes_frame (checked : d.checked = true) (clean : d.Clean count t) :
    (d.frame r count t).bytes = d.contents r count := by
  ext i inside
  rw [Frame.bytes, contents, Vector.getElem_ofFn, Vector.getElem_ofFn, frame_byte checked inside,
    (clean i inside).1, UInt8.xor_zero]

def Spoiled (d : Device) (count t : Nat) : Prop := d.responds t = true ∧ ¬d.Clean count t

instance : Decidable (d.Spoiled count t) := inferInstanceAs (Decidable (_ ∧ _))

theorem not_spoiled_of_clean (clean : d.Clean count t) : ¬d.Spoiled count t :=
  fun spoiled => spoiled.2 clean

theorem not_spoiled_of_silent (silent : d.responds t = false) : ¬d.Spoiled count t := by
  rintro ⟨responds, -⟩
  rw [silent] at responds
  cases responds

end Device

namespace Link

/-- During a reading, before a transaction with the given number: the link still fits the chip as
it was at first, and so do the registers. -/
structure Reading (d : Device) (t : Nat) (link : Link Device) : Prop where
  address : link.address = d.address
  setting : link.bus.setting = d.setting
  length : link.bus.log.length = t
  registers : link.bus.registers = d.registers

section Course

variable {d : Device} {r : Register} {count first t attempts : Nat} {link : Link Device}
  {α γ : Type}

theorem Reading.fetch_cases (h : Reading d t link) (r : Register) (count : Nat) :
    ∃ next, Reading d (t + 1) next ∧
      (d.responds t = true ∧ fetch r (2 * count) link = .ok (d.frame r count t) next ∨
        d.responds t = false ∧
          fetch r (2 * count) link = .error (.bus .notAcknowledged) next) := by
  have acknowledges : link.bus.acknowledges link.address = d.responds t := by
    rw [h.address, Device.acknowledges_eq h.setting, h.length]
  have later : link.bus.log.length + 1 = t + 1 := congrArg Nat.succ h.length
  rw [fetch_eq, acknowledges]
  cases responds : d.responds t with
  | false =>
    refine ⟨_, ?_, .inr ⟨rfl, rfl⟩⟩
    exact ⟨h.address, h.setting, later, h.registers⟩
  | true =>
    have shown : { link.bus with pointer := r }.received (2 * count) = d.frame r count t := by
      have checked : link.bus.checked = d.checked := (congrArg Device.checked h.setting :)
      have address : link.bus.address = d.address := (congrArg Device.address h.setting :)
      have corruptions : link.bus.corruptions = d.corruptions :=
        (congrArg Device.corruptions h.setting :)
      simp only [Device.received, Device.frame, Device.garbled, Device.answerByte, Device.get,
        checked, address, corruptions, h.registers, h.length]
    rw [if_pos rfl, Device.accept_register, shown]
    refine ⟨_, ?_, .inl ⟨rfl, rfl⟩⟩
    exact ⟨h.address, h.setting, later, h.registers⟩

inductive Ends (d : Device) (count first attempts : Nat) (content : α) :
    EStateM.Result (ChipError DeviceError) (Link Device) α → Prop
  | answered {k : Nat} {next : Link Device} (within : k < attempts)
      (before : ∀ j < k, d.Spoiled count (first + j)) (responds : d.responds (first + k) = true)
      (clean : d.Clean count (first + k)) (spent : next.bus.log.length = first + k + 1) :
      Ends d count first attempts content (.ok content next)
  | refused {k : Nat} {next : Link Device} (within : k < attempts)
      (before : ∀ j < k, d.Spoiled count (first + j)) (silent : d.responds (first + k) = false)
      (spent : next.bus.log.length = first + k + 1) :
      Ends d count first attempts content (.error (.bus .notAcknowledged) next)
  | exhausted {next : Link Device} (all : ∀ j < attempts, d.Spoiled count (first + j))
      (spent : next.bus.log.length = first + attempts) :
      Ends d count first attempts content (.error .checksum next)

theorem Ends.later {content : α} {result : EStateM.Result (ChipError DeviceError) (Link Device) α}
    (spoiled : d.Spoiled count first) (h : Ends d count (first + 1) attempts content result) :
    Ends d count first (attempts + 1) content result := by
  have shift : ∀ k, first + 1 + k = first + (k + 1) := by omega
  have before {k : Nat} (h : ∀ j < k, d.Spoiled count (first + 1 + j)) :
      ∀ j < k + 1, d.Spoiled count (first + j) := by
    intro j less
    cases j with
    | zero => exact spoiled
    | succ j => exact shift j ▸ h j (by omega)
  cases h with
  | answered within others responds clean spent =>
    exact .answered (by omega) (before others) (shift _ ▸ responds) (shift _ ▸ clean)
      (by rw [spent, shift])
  | refused within others silent spent =>
    exact .refused (by omega) (before others) (shift _ ▸ silent) (by rw [spent, shift])
  | exhausted all spent => exact .exhausted (before all) (by rw [spent, shift])

theorem Reading.fetchIntact_ends (checked : d.checked = true) (h : Reading d first link)
    (bursts : ∀ k < attempts, d.Bursts count (first + k)) :
    Ends d count first attempts (d.contents r count) (fetchIntact r count attempts link) := by
  induction attempts generalizing first link with
  | zero => exact .exhausted (by omega) h.length
  | succ attempts ih =>
    rw [fetchIntact_succ]
    obtain ⟨next, after, ⟨responds, fetched⟩ | ⟨silent, fetched⟩⟩ := h.fetch_cases r count
    · rw [fetched]
      dsimp only
      rw [after.address]
      have whole : d.Bursts count first := bursts 0 (by omega)
      have intact : Frame.intact d.address (d.frame r count first) = true ↔ d.Clean count first :=
        Device.intact_frame checked whole
      by_cases clean : d.Clean count first
      · rw [if_pos (intact.mpr clean), Device.bytes_frame checked clean]
        exact .answered (k := 0) (by omega) (by omega) responds clean after.length
      · -- the next attempt starts from the same chip, one transaction later
        rw [if_neg (clean ∘ intact.mp)]
        refine (ih after fun k less => ?_).later ⟨responds, clean⟩
        have := bursts (k + 1) (by omega)
        rwa [← Nat.add_assoc, Nat.add_right_comm] at this
    · rw [fetched]
      exact .refused (k := 0) (by omega) (by omega) silent after.length

theorem Ends.map {content : α} {task : EStateM (ChipError DeviceError) (Link Device) α} (f : α → γ)
    (h : Ends d count first attempts content (task link)) :
    Ends d count first attempts (f content) ((task >>= fun a => pure (f a)) link) := by
  simp only [bind, EStateM.bind]
  generalize task link = result at h
  cases h with
  | answered within before responds clean spent =>
    exact .answered within before responds clean spent
  | refused within before silent spent => exact .refused within before silent spent
  | exhausted all spent => exact .exhausted all spent

end Course

section Outcome

variable {α : Type} {task : EStateM (ChipError DeviceError) (Link Device) α} {content : α}
  {count : Nat} {link : Link Device}

def outcome (task : EStateM (ChipError DeviceError) (Link Device) α) (link : Link Device) :
    Except (ChipError DeviceError) α × Nat :=
  match task link with
  | .ok a next => (.ok a, next.bus.log.length - link.bus.log.length)
  | .error e next => (.error e, next.bus.log.length - link.bus.log.length)

theorem outcome_of_ok {a : α} {next : Link Device} {m : Nat} (ran : task link = .ok a next)
    (spent : next.bus.log.length = link.bus.log.length + m) : outcome task link = (.ok a, m) := by
  rw [outcome, ran]
  dsimp only
  rw [spent, Nat.add_sub_cancel_left]

theorem outcome_of_error {e : ChipError DeviceError} {next : Link Device} {m : Nat}
    (ran : task link = .error e next) (spent : next.bus.log.length = link.bus.log.length + m) :
    outcome task link = (.error e, m) := by
  rw [outcome, ran]
  dsimp only
  rw [spent, Nat.add_sub_cancel_left]

/-- A reading returns the content after the first attempt that arrives whole. It fails at once with
an attempt that is refused, and otherwise after the last one. -/
structure Settles (task : EStateM (ChipError DeviceError) (Link Device) α) (content : α)
    (count : Nat) (link : Link Device) : Prop where
  ok_iff : ∀ a made, outcome task link = (.ok a, made) ↔
    a = content ∧ ∃ k < attempts, made = k + 1 ∧
      (∀ j < k, link.bus.Spoiled count (link.bus.log.length + j)) ∧
      link.bus.responds (link.bus.log.length + k) = true ∧
      link.bus.Clean count (link.bus.log.length + k)
  bus_iff : ∀ e made, outcome task link = (.error (.bus e), made) ↔
    e = .notAcknowledged ∧ ∃ k < attempts, made = k + 1 ∧
      (∀ j < k, link.bus.Spoiled count (link.bus.log.length + j)) ∧
      link.bus.responds (link.bus.log.length + k) = false
  checksum_iff : ∀ made, outcome task link = (.error .checksum, made) ↔
    made = attempts ∧ ∀ j < attempts, link.bus.Spoiled count (link.bus.log.length + j)
  few : (outcome task link).2 ≤ attempts

theorem eq_of_first {p : Nat → Prop} {k m : Nat} (before : ∀ j < k, p j) (stop : ¬p k)
    (before' : ∀ j < m, p j) (stop' : ¬p m) : k = m := by
  rcases Nat.lt_trichotomy k m with less | same | more
  · exact absurd (before' k less) stop
  · exact same
  · exact absurd (before m more) stop'

theorem Ends.settles
    (h : Ends link.bus count link.bus.log.length attempts content (task link)) :
    Settles task content count link := by
  generalize ran : task link = result at h
  cases h with
  | @answered k next within before responds clean spent =>
    have stop := Device.not_spoiled_of_clean clean
    have done : outcome task link = (.ok content, k + 1) := outcome_of_ok ran spent
    refine ⟨fun a made => ?_, fun e made => ?_, fun made => ?_, ?_⟩ <;> rw [done]
    · constructor
      · rintro ⟨⟩
        exact ⟨rfl, k, within, rfl, before, responds, clean⟩
      · rintro ⟨rfl, m, -, rfl, before', -, clean'⟩
        obtain rfl := eq_of_first before stop before' (Device.not_spoiled_of_clean clean')
        rfl
    · refine iff_of_false nofun ?_
      rintro ⟨-, m, -, -, before', silent⟩
      obtain rfl := eq_of_first before stop before' (Device.not_spoiled_of_silent silent)
      rw [responds] at silent
      cases silent
    · exact iff_of_false nofun fun ⟨_, all⟩ => stop (all k within)
    · exact within
  | @refused k next within before silent spent =>
    have stop : ¬link.bus.Spoiled count (link.bus.log.length + k) :=
      Device.not_spoiled_of_silent silent
    have done : outcome task link = (.error (.bus .notAcknowledged), k + 1) :=
      outcome_of_error ran spent
    refine ⟨fun a made => ?_, fun e made => ?_, fun made => ?_, ?_⟩ <;> rw [done]
    · refine iff_of_false nofun ?_
      rintro ⟨-, m, -, -, before', responds, clean⟩
      obtain rfl := eq_of_first before stop before' (Device.not_spoiled_of_clean clean)
      rw [responds] at silent
      cases silent
    · constructor
      · rintro ⟨⟩
        exact ⟨rfl, k, within, rfl, before, silent⟩
      · rintro ⟨rfl, m, -, rfl, before', silent'⟩
        obtain rfl := eq_of_first before stop before' (Device.not_spoiled_of_silent silent')
        rfl
    · exact iff_of_false nofun fun ⟨_, all⟩ => stop (all k within)
    · exact within
  | @exhausted next all spent =>
    have done : outcome task link = (.error .checksum, attempts) := outcome_of_error ran spent
    refine ⟨fun a made => ?_, fun e made => ?_, fun made => ?_, by rw [done]⟩ <;> rw [done]
    · refine iff_of_false nofun ?_
      rintro ⟨-, k, within, -, -, -, clean⟩
      exact Device.not_spoiled_of_clean clean (all k within)
    · refine iff_of_false nofun ?_
      rintro ⟨-, k, within, -, -, silent⟩
      exact Device.not_spoiled_of_silent silent (all k within)
    · constructor
      · rintro ⟨⟩
        exact ⟨rfl, all⟩
      · rintro ⟨rfl, -⟩
        rfl

end Outcome

section Reads

variable {link : Link Device}

theorem read_checked (checked : link.checked = true) (r : Register) (count : Nat) :
    (read r count : EStateM (ChipError DeviceError) (Link Device) _) link =
      fetchIntact r count attempts link := by
  change (if link.checked then fetchIntact r count attempts else fetch r count :
    EStateM (ChipError DeviceError) (Link Device) _) link = _
  rw [if_pos checked]

theorem read_ends (fits : link.Fits) (checked : link.checked = true) (r : Register) {count : Nat}
    (bursts : ∀ k < attempts, link.bus.Bursts count (link.bus.log.length + k)) :
    Ends link.bus count link.bus.log.length attempts (link.bus.contents r count)
      (read r count link) := by
  rw [read_checked checked]
  have start : Reading link.bus link.bus.log.length link := ⟨fits.address, rfl, rfl, rfl⟩
  exact start.fetchIntact_ends (fits.checked.symm.trans checked) bursts

def word (d : Device) (r : Register) : UInt16 :=
  (d.get r).toUInt16 <<< 8 ||| (d.get (r + 1)).toUInt16

/-- Readings with checksums deliver what the registers hold, or nothing, however their answers are
disturbed by bursts and whichever transactions fail. -/
theorem checked_reads_settle (fits : link.Fits) (checked : link.checked = true) (r : Register) :
    ((∀ k < attempts, link.bus.Bursts 1 (link.bus.log.length + k)) →
      Settles (readByte r) (link.bus.get r) 1 link) ∧
    ((∀ k < attempts, link.bus.Bursts 2 (link.bus.log.length + k)) →
      Settles (readWord r) (word link.bus r) 2 link) := by
  constructor <;> intro bursts <;> refine Ends.settles ?_
  · have ends := (read_ends fits checked r bursts).map (·[0])
    have byte : (link.bus.contents r 1)[0] = link.bus.get r := by simp [Device.contents]
    rwa [byte] at ends
  · have ends := (read_ends fits checked r bursts).map
      (fun bytes => bytes[0].toUInt16 <<< 8 ||| bytes[1].toUInt16 : Vector UInt8 2 → UInt16)
    have both : (link.bus.contents r 2)[0] = link.bus.get r ∧
        (link.bus.contents r 2)[1] = link.bus.get (r + 1) := by simp [Device.contents]
    rwa [both.1, both.2] at ends

def noisy : Link Device :=
  { bus :=
      { registers := Vector.replicate 256 0x3C
        corruptions := [⟨0, 0, 0xA5⟩, ⟨1, 1, 0x01⟩] } }

theorem checked_reads_settle_noisy : outcome (readByte 0x05) noisy = (.ok 0x3C, 3) := by
  have bursts : ∀ k < attempts, noisy.bus.Bursts 1 (noisy.bus.log.length + k) := by
    intro k less i inside
    obtain rfl : i = 0 := by omega
    have one : ∀ k < attempts, noisy.bus.flips (noisy.bus.log.length + k) 0 = 0 ∨
        noisy.bus.flips (noisy.bus.log.length + k) 1 = 0 := by decide
    exact .of_one (one k less)
  have settles := (checked_reads_settle ⟨rfl, rfl⟩ rfl 0x05).1 bursts
  refine (settles.ok_iff _ _).mpr ⟨?_, 2, by decide, rfl, by decide, by decide, by decide⟩
  simp [noisy, Device.get_eq]

end Reads

end Link
end PackGuard.Chip
