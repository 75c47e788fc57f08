import CertOS.Counters
import CertOS.Metrics.SystemMonitor
import Mathlib.Algebra.Order.BigOperators.Group.List

/-!
# The rates of the network

The monitor adds up what the interfaces have received and sent, and what both sums have gained
since the last call is divided by the time between. The sums are over the interfaces that are
there at the time, and of these over the ones whose label does not have `lo:` in it; so a sum
goes down when an interface vanishes or starts to count anew, and the difference is then close
to `2 ^ 64`.

A rate is at most the bytes of all interfaces but the loopback, over the time, just if the sum
has not gone down, or the bytes that are not in it make up for `2 ^ 64`; and if the last sum of
received bytes was zero, nothing is reported at all (`CertOS.network_rates_bounded_iff`).
-/

namespace CertOS

/-! ### Readings -/

/-- A line of `/proc/net/dev`: an interface with what it has received and sent, in bytes and in
other units. -/
structure NetDevice where
  indent : ℕ
  name : List Char
  rxBytes : Scan.Column
  rxPackets : Scan.Column
  rxErrs : Scan.Column
  rxDrop : Scan.Column
  rxFifo : Scan.Column
  rxFrame : Scan.Column
  rxCompressed : Scan.Column
  rxMulticast : Scan.Column
  txBytes : Scan.Column
  /-- The columns behind the sent bytes. -/
  txOthers : List Scan.Column
  /-- A name has no blank. -/
  name_noSpace : Scan.NoSpace name

namespace NetDevice

/-- The name as it is read, with the colon behind it. -/
def label (d : NetDevice) : List Char := d.name ++ [':']

/-- The columns of the line. -/
def columns (d : NetDevice) : List Scan.Column :=
  [d.rxBytes, d.rxPackets, d.rxErrs, d.rxDrop, d.rxFifo, d.rxFrame, d.rxCompressed, d.rxMulticast,
    d.txBytes] ++ d.txOthers

/-- The text of the line. -/
def text (d : NetDevice) : List Char :=
  List.replicate d.indent ' ' ++ (d.label ++ Scan.row d.columns)

/-- The bytes that have been received and sent. -/
def bytes (d : NetDevice) : NetBytes := ⟨d.rxBytes.value, d.txBytes.value⟩

/-- The interfaces that the loop of `get_net_io` does not skip. -/
def counted (d : NetDevice) : Bool := (Text.find ['l', 'o', ':'] d.label).isNone

theorem label_noSpace (d : NetDevice) : Scan.NoSpace d.label := by
  rw [Scan.noSpace_iff]
  intro c hc
  rcases List.mem_append.mp hc with hc | hc
  · exact Scan.noSpace_iff.mp d.name_noSpace c hc
  · obtain rfl := List.mem_singleton.mp hc
    rfl

theorem newline_not_mem_text (d : NetDevice) : '\n' ∉ d.text := by
  intro h
  rcases List.mem_append.mp h with h | h
  · exact absurd (List.eq_of_mem_replicate h) (by decide)
  · rcases List.mem_append.mp h with h | h
    · exact absurd (Scan.noSpace_iff.mp d.label_noSpace _ h) (by decide)
    · exact Scan.newline_not_mem_row _ h

/-- **The loop reads a line back**, or skips it. -/
theorem netLine_text (uninit : NetBytes) (d : NetDevice) :
    SystemMonitor.netLine uninit d.text = if d.counted then some d.bytes else none := by
  have hword := Scan.word_blanks (w := d.label) (by simp [label]) d.label_noSpace
    (Scan.stops_row (by decide) d.columns) d.indent []
  simp only [SystemMonitor.netLine, text, hword]
  simp only [columns, List.cons_append, List.nil_append, Scan.uint64_row]
  rw [counted, ← Option.not_isSome]
  cases (Text.find ['l', 'o', ':'] d.label).isSome with
  | false => rfl
  | true => rfl

end NetDevice

/-- The name of the loopback. -/
def loopback : List Char := ['l', 'o']

/-- The loopback itself is skipped. -/
theorem NetDevice.name_ne_loopback {d : NetDevice} (h : d.counted = true) : d.name ≠ loopback := by
  intro hname
  rw [counted, label, hname] at h
  exact absurd h (by decide)

/-- A reading of `/proc/net/dev`: two lines of a header, and a line for each interface. -/
structure NetReading where
  header : List (List Char)
  devices : List NetDevice
  length_header : header.length = 2
  header_lines : ∀ line ∈ header, '\n' ∉ line

namespace NetReading

/-- The text of a reading. -/
def text (r : NetReading) : List Char :=
  Scan.unlines (r.header ++ r.devices.map NetDevice.text)

/-- The bytes of all interfaces but the loopback, in one direction. -/
def total (r : NetReading) (f : NetBytes → UInt64) : ℕ :=
  ((r.devices.filter fun d => d.name ≠ loopback).map fun d => (f d.bytes).toNat).sum

/-- The bytes of the interfaces that are counted. -/
def countedTotal (r : NetReading) (f : NetBytes → UInt64) : ℕ :=
  ((r.devices.filter NetDevice.counted).map fun d => (f d.bytes).toNat).sum

/-- The sum that the monitor takes of them, in 64 bits. -/
def seen (r : NetReading) (f : NetBytes → UInt64) : ℕ := r.countedTotal f % 2 ^ 64

theorem seen_lt (r : NetReading) (f : NetBytes → UInt64) : r.seen f < 2 ^ 64 :=
  Nat.mod_lt _ (by decide)

theorem seen_le_total (r : NetReading) (f : NetBytes → UInt64) : r.seen f ≤ r.total f := by
  have hsub : (r.devices.filter NetDevice.counted).Sublist
      (r.devices.filter fun d => d.name ≠ loopback) := by
    refine List.monotone_filter_right _ fun d hd => ?_
    exact decide_eq_true (NetDevice.name_ne_loopback hd)
  have hsum : r.countedTotal f ≤ r.total f :=
    (hsub.map fun d : NetDevice => (f d.bytes).toNat).sum_le_sum fun _ _ => Nat.zero_le _
  exact (Nat.mod_le _ _).trans hsum

/-- **The lines of the interfaces** are what is left of a reading behind its header. -/
theorem lines_text (r : NetReading) :
    (Scan.lines r.text).drop 2 = r.devices.map NetDevice.text := by
  have hlines : ∀ line ∈ r.header ++ r.devices.map NetDevice.text, '\n' ∉ line := by
    intro line hline
    rcases List.mem_append.mp hline with hline | hline
    · exact r.header_lines line hline
    · obtain ⟨d, -, rfl⟩ := List.mem_map.mp hline
      exact d.newline_not_mem_text
  rw [text, Scan.lines_unlines hlines]
  exact List.drop_left' r.length_header

end NetReading

/-! ### One call -/

namespace SystemMonitor

/-- **The loop adds up** what the counted interfaces have received and sent. -/
theorem netTotals_map_text (uninit : ℕ → NetBytes) (ds : List NetDevice) :
    ∀ acc : NetBytes, netTotals uninit acc (ds.map NetDevice.text) =
      let counted := ds.filter NetDevice.counted
      ⟨acc.rx + UInt64.ofNat ((counted.map fun d => d.bytes.rx.toNat).sum),
        acc.tx + UInt64.ofNat ((counted.map fun d => d.bytes.tx.toNat).sum)⟩ := by
  induction ds with
  | nil =>
    intro acc
    simp [netTotals]
  | cons d ds ih =>
    intro acc
    rw [List.map_cons, netTotals, NetDevice.netLine_text]
    cases hd : d.counted with
    | false =>
      rw [List.filter_cons_of_neg (by rw [hd]; exact Bool.false_ne_true)]
      exact ih acc
    | true =>
      rw [List.filter_cons_of_pos hd]
      simp only [if_true, ih, List.map_cons, List.sum_cons, UInt64.ofNat_add,
        UInt64.ofNat_toNat, UInt64.add_assoc]

/-- **The sums of a reading** are those of its counted interfaces, in 64 bits. -/
theorem netTotals_text (uninit : ℕ → NetBytes) (r : NetReading) :
    (netTotals uninit ⟨0, 0⟩ ((Scan.lines r.text).drop 2)).rx.toNat = r.seen NetBytes.rx ∧
      (netTotals uninit ⟨0, 0⟩ ((Scan.lines r.text).drop 2)).tx.toNat = r.seen NetBytes.tx := by
  rw [r.lines_text, netTotals_map_text]
  simp only [UInt64.zero_add, UInt64.toNat_ofNat']
  exact ⟨rfl, rfl⟩

variable {K : Type} [Field K] {m : SystemMonitor}

/-- What is kept of a reading: its sums. -/
structure KeepsNet (m : SystemMonitor) (r : NetReading) : Prop where
  lastNetRx : m.lastNetRx.toNat = r.seen NetBytes.rx
  lastNetTx : m.lastNetTx.toNat = r.seen NetBytes.tx

/-- A call keeps the reading, whatever it reports. -/
theorem keepsNet_getNetIo (r : NetReading) (uninit : ℕ → NetBytes) (dt : ℤ) (m : SystemMonitor) :
    KeepsNet (getNetIo (some r.text) uninit dt m : (K × K) × SystemMonitor).2 r := by
  obtain ⟨hrx, htx⟩ := netTotals_text uninit r
  exact ⟨hrx, htx⟩

/-- How much the sum of a reading has gained on that of another, in 64 bits. -/
def netGain (r r' : NetReading) (f : NetBytes → UInt64) : ℕ :=
  Counters.diff (2 ^ 64) (r.seen f) (r'.seen f)

/-- **What a call reports**: nothing, if the last sum of received bytes was zero, and otherwise
what the two sums have gained. -/
theorem rates_getNetIo {r : NetReading} (hm : m.KeepsNet r) (r' : NetReading)
    (uninit : ℕ → NetBytes) {dt : ℤ} (hdt : 0 < dt) :
    (getNetIo (some r'.text) uninit dt m : (K × K) × SystemMonitor).1 =
      if r.seen NetBytes.rx = 0 then (0, 0)
      else
        (netGain r r' NetBytes.rx / ((dt : K) / 1000),
          netGain r r' NetBytes.tx / ((dt : K) / 1000)) := by
  obtain ⟨hrx, htx⟩ := netTotals_text uninit r'
  have hzero : m.lastNetRx > 0 ↔ r.seen NetBytes.rx ≠ 0 := by
    rw [gt_iff_lt, UInt64.lt_iff_toNat_lt, hm.lastNetRx]
    exact Nat.pos_iff_ne_zero
  simp only [getNetIo, Counters.toNat_sub_eq_diff, hrx, htx, hm.lastNetRx, hm.lastNetTx,
    netGain, gt_iff_lt.mpr hdt, true_and, hzero, ne_eq, ite_not]

end SystemMonitor

/-! ### Main result -/

variable {K : Type} [Field K] [LinearOrder K]

/-- **A rate is bounded by the counters**: it is not negative, and at most the bytes of all
interfaces but the loopback, over the time. -/
def RateBounded (rate : K) (dt : ℤ) (bytes : ℕ) : Prop :=
  0 ≤ rate ∧ rate ≤ (1000 : ℕ) / dt * bytes

instance (rate : K) (dt : ℤ) (bytes : ℕ) : Decidable (RateBounded rate dt bytes) :=
  inferInstanceAs (Decidable (_ ∧ _))

/-- **A sum is not exceeded**: it has not gone down, or the bytes that are not in it make up for
`2 ^ 64`. -/
def NetReading.Upward (r r' : NetReading) (f : NetBytes → UInt64) : Prop :=
  r.seen f ≤ r'.seen f ∨ 2 ^ 64 + r'.seen f ≤ r'.total f + r.seen f

variable [IsStrictOrderedRing K]

theorem rateBounded_zero {dt : ℤ} (hdt : 0 < dt) (bytes : ℕ) : RateBounded (0 : K) dt bytes := by
  have hpos : (0 : K) < dt := Int.cast_pos.mpr hdt
  exact ⟨le_rfl, by positivity⟩

/-- The rate of a sum is bounded just if the sum is not exceeded. -/
theorem rateBounded_diff_iff (r r' : NetReading) (f : NetBytes → UInt64) {dt : ℤ} (hdt : 0 < dt) :
    RateBounded (SystemMonitor.netGain r r' f / ((dt : K) / 1000)) dt (r'.total f) ↔
      r.Upward r' f := by
  have hpos : (0 : K) < (dt : K) / 1000 := div_pos (Int.cast_pos.mpr hdt) (by norm_num)
  have hbound : ((1000 : ℕ) : K) / dt * r'.total f = r'.total f / ((dt : K) / 1000) := by
    rw [div_div_eq_mul_div, div_mul_eq_mul_div, mul_comm, Nat.cast_ofNat]
  rw [RateBounded, hbound, Counters.rate_le_iff hpos, SystemMonitor.netGain,
    Counters.diff_le_iff (r.seen_lt f) (r'.seen_lt f) (r'.seen_le_total f)]
  exact and_iff_right (div_nonneg (Nat.cast_nonneg _) hpos.le)

/-- **The rates are bounded** just if nothing had been received before, or neither sum is
exceeded: for every two successive readings, whatever the monitor has kept before them, and every
positive time between. -/
theorem network_rates_bounded_iff (m : SystemMonitor) (r r' : NetReading)
    (uninit uninit' : ℕ → NetBytes) (dt₀ : ℤ) {dt : ℤ} (hdt : 0 < dt) :
    let m' := (m.getNetIo (some r.text) uninit dt₀ : (K × K) × SystemMonitor).2
    let rates : K × K := (m'.getNetIo (some r'.text) uninit' dt).1
    (RateBounded rates.1 dt (r'.total NetBytes.rx) ∧
        RateBounded rates.2 dt (r'.total NetBytes.tx)) ↔
      r.seen NetBytes.rx = 0 ∨ (r.Upward r' NetBytes.rx ∧ r.Upward r' NetBytes.tx) := by
  intro m' rates
  have hm : m'.KeepsNet r := SystemMonitor.keepsNet_getNetIo r uninit dt₀ m
  have hrates : rates = _ := SystemMonitor.rates_getNetIo hm r' uninit' hdt
  rw [hrates]
  split
  · rename_i hzero
    exact iff_of_true ⟨rateBounded_zero hdt _, rateBounded_zero hdt _⟩ (Or.inl hzero)
  · rename_i hne
    rw [rateBounded_diff_iff r r' NetBytes.rx hdt, rateBounded_diff_iff r r' NetBytes.tx hdt]
    exact ⟨Or.inr, fun h => h.resolve_left hne⟩

/-- A line of an interface, with columns of a few widths. -/
def netDevice (name : List Char) (rx tx : UInt64)
    (h : Scan.NoSpace name := by decide) : NetDevice :=
  { indent := 2, name := name, rxBytes := ⟨7, rx⟩, rxPackets := ⟨7, 9⟩, rxErrs := ⟨4, 0⟩
    rxDrop := ⟨4, 0⟩, rxFifo := ⟨4, 0⟩, rxFrame := ⟨5, 0⟩, rxCompressed := ⟨10, 0⟩
    rxMulticast := ⟨9, 0⟩, txBytes := ⟨8, tx⟩, txOthers := [⟨7, 8⟩], name_noSpace := h }

/-- A reading with these interfaces. -/
def netReading (devices : List NetDevice) : NetReading :=
  ⟨[['I', 'n', 't', 'e', 'r', '-', '|'], [' ', 'f', 'a', 'c', 'e', ' ', '|']], devices, rfl,
    by decide⟩

/-- The loopback and a cable. -/
def cable (rx tx : UInt64) : List NetDevice :=
  [netDevice ['l', 'o'] 64 64, netDevice ['e', 't', 'h', '0'] rx tx]

/-- A radio beside them, which may vanish. -/
def cableAndRadio (rx tx : UInt64) : List NetDevice :=
  cable rx tx ++ [netDevice ['w', 'l', 'a', 'n', '0'] 700 300]

/-- What the variables happen to hold. -/
def noBytes (_ : ℕ) : NetBytes := ⟨0, 0⟩

theorem network_rates_bounded_cable :
    0 < (5000 : ℤ) ∧
    (let m' := (({} : SystemMonitor).getNetIo (some (netReading (cable 1000 500)).text) noBytes
        0 : (ℚ × ℚ) × SystemMonitor).2
      let rates : ℚ × ℚ := (m'.getNetIo (some (netReading (cable 1200 600)).text) noBytes 5000).1
      (RateBounded rates.1 5000 ((netReading (cable 1200 600)).total NetBytes.rx) ∧
          RateBounded rates.2 5000 ((netReading (cable 1200 600)).total NetBytes.tx)) ↔
        (netReading (cable 1000 500)).seen NetBytes.rx = 0 ∨
          ((netReading (cable 1000 500)).Upward (netReading (cable 1200 600)) NetBytes.rx ∧
            (netReading (cable 1000 500)).Upward (netReading (cable 1200 600)) NetBytes.tx)) :=
  ⟨by decide, network_rates_bounded_iff {} _ _ noBytes noBytes 0 (by decide)⟩

/-- **The rate is far too high** when the radio vanishes within five seconds: what is reported
as received in a second is a fifth of `2 ^ 64 - 500`. -/
theorem rate_of_vanished_radio :
    let m' := (({} : SystemMonitor).getNetIo (some (netReading (cableAndRadio 1000 500)).text)
        noBytes 0 : (ℚ × ℚ) × SystemMonitor).2
    let rates : ℚ × ℚ := (m'.getNetIo (some (netReading (cable 1200 600)).text) noBytes 5000).1
    rates.1 = (2 ^ 64 - 500) / 5 ∧ (netReading (cable 1200 600)).total NetBytes.rx = 1200 ∧
      ¬ (RateBounded rates.1 5000 ((netReading (cable 1200 600)).total NetBytes.rx) ∧
        RateBounded rates.2 5000 ((netReading (cable 1200 600)).total NetBytes.tx)) := by
  decide +kernel

end CertOS
