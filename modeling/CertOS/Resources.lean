import CertOS.Proto

/-!
# Comparing and subtracting resources

The scheduler and the resource manager compare a request with what is available in
three resources, two of them 32 bits wide and one 64, and subtract it with the
arithmetic of these widths. Under the comparison no subtraction wraps
(`CertOS.amount_deduct`), so that everything later is about unbounded numbers
(`CertOS.ResourceSpec.amount`).
-/

namespace CertOS

/-- Whether a request fits into what is available, in the three resources the
scheduler looks at. -/
def fits (req avail : ResourceSpec) : Bool :=
  req.cpuCores ≤ avail.cpuCores ∧ req.ramMb ≤ avail.ramMb ∧ req.gpuCount ≤ avail.gpuCount

/-- What is left after a deduction, with the subtractions of the source. -/
def deduct (req avail : ResourceSpec) : ResourceSpec :=
  { avail with
    cpuCores := avail.cpuCores - req.cpuCores
    ramMb := avail.ramMb - req.ramMb
    gpuCount := avail.gpuCount - req.gpuCount }

/-! ### A deduction does not wrap -/

/-- A request fits if it does in each of the three resources. -/
theorem fits_iff {req avail : ResourceSpec} :
    fits req avail = true ↔ ∀ d, req.amount d ≤ avail.amount d := by
  simp only [fits, decide_eq_true_eq, UInt32.le_iff_toNat_le, UInt64.le_iff_toNat_le]
  constructor
  · rintro ⟨hcpu, hram, hgpu⟩ d
    cases d with
    | cpu => exact hcpu
    | ram => exact hram
    | gpu => exact hgpu
  · intro h
    exact ⟨h .cpu, h .ram, h .gpu⟩

/-- **A request that fits is deducted exactly**: no subtraction wraps. -/
theorem amount_deduct {req avail : ResourceSpec} (h : fits req avail = true) (d : Dimension) :
    (deduct req avail).amount d + req.amount d = avail.amount d := by
  obtain ⟨hcpu, hram, hgpu⟩ : req.cpuCores ≤ avail.cpuCores ∧ req.ramMb ≤ avail.ramMb ∧
      req.gpuCount ≤ avail.gpuCount := by simpa [fits] using h
  cases d with
  | cpu =>
    have := UInt32.le_iff_toNat_le.mp hcpu
    simp only [ResourceSpec.amount, deduct, UInt32.toNat_sub_of_le _ _ hcpu]
    omega
  | ram =>
    have := UInt64.le_iff_toNat_le.mp hram
    simp only [ResourceSpec.amount, deduct, UInt64.toNat_sub_of_le _ _ hram]
    omega
  | gpu =>
    have := UInt32.le_iff_toNat_le.mp hgpu
    simp only [ResourceSpec.amount, deduct, UInt32.toNat_sub_of_le _ _ hgpu]
    omega

end CertOS
