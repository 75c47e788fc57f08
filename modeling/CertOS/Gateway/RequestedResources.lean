import CertOS.Gateway.PublicRequest

/-!
# The resources of a public request

The body of a public request names a number of cores, of gigabytes and of hours as `int64`
values. The gateway multiplies, narrows each result to `int32_t`, and hands it to a setter of
the message, which takes an unsigned value. What arrives depends on the width of the field:
a field of 32 bits takes the last 32 bits of the number, and one of 64 bits takes the number
that these bits are as a signed one. Nothing is checked on the way, so the request is
faithful just if each number lies where its own conversions do nothing
(`CertOS.RestRoutes.resources_faithful_iff`).
-/

namespace CertOS

/-! ### The conversions -/

/-- The value of a signed product is in the range of its type. -/
def FitsInt64 (z : ℤ) : Prop := -2 ^ 63 ≤ z ∧ z < 2 ^ 63

instance (z : ℤ) : Decidable (FitsInt64 z) := inferInstanceAs (Decidable (_ ∧ _))

/-- A product that does not overflow is the product of the integers. -/
theorem toInt_mul_of_fits {x y : Int64} (h : FitsInt64 (x.toInt * y.toInt)) :
    (x * y).toInt = x.toInt * y.toInt := by
  obtain ⟨hlo, hhi⟩ := h
  rw [Int64.toInt_mul]
  exact Int.bmod_eq_of_le (by omega) (by omega)

/-- What a field of 32 bits holds of a number: its last 32 bits. -/
theorem toNat_narrow (x : Int64) :
    (x.toInt32.toUInt32.toNat : ℤ) = x.toInt % 2 ^ 32 := by
  have hbits : x.toInt32.toInt = (x.toInt32.toUInt32.toNat : ℤ).bmod (2 ^ 32) :=
    BitVec.toInt_eq_toNat_bmod _
  have hlt : x.toInt32.toUInt32.toNat < 2 ^ 32 := x.toInt32.toUInt32.toNat_lt
  rw [Int64.toInt_toInt32] at hbits
  have hmod : x.toInt % ((2 ^ 32 : ℕ) : ℤ) =
      (x.toInt32.toUInt32.toNat : ℤ) % ((2 ^ 32 : ℕ) : ℤ) := by
    rw [← Int.bmod_emod, hbits, Int.bmod_emod]
  omega

/-- What a field of 64 bits holds of a number: what its last 32 bits are as a signed number,
modulo `2 ^ 64`. -/
theorem toNat_widen (x : Int64) :
    (x.toInt32.toInt64.toUInt64.toNat : ℤ) = (x.toInt.bmod (2 ^ 32)) % 2 ^ 64 := by
  have hbits : x.toInt32.toInt64.toInt = (x.toInt32.toInt64.toUInt64.toNat : ℤ).bmod (2 ^ 64) :=
    BitVec.toInt_eq_toNat_bmod _
  have hlt : x.toInt32.toInt64.toUInt64.toNat < 2 ^ 64 := x.toInt32.toInt64.toUInt64.toNat_lt
  rw [Int32.toInt_toInt64, Int64.toInt_toInt32] at hbits
  have hmod : x.toInt.bmod (2 ^ 32) % ((2 ^ 64 : ℕ) : ℤ) =
      (x.toInt32.toInt64.toUInt64.toNat : ℤ) % ((2 ^ 64 : ℕ) : ℤ) := by
    rw [hbits, Int.bmod_emod]
  omega

/-- **A field of 32 bits is faithful** to the numbers of 32 bits. -/
theorem toNat_narrow_eq_iff (x : Int64) :
    (x.toInt32.toUInt32.toNat : ℤ) = x.toInt ↔ 0 ≤ x.toInt ∧ x.toInt < 2 ^ 32 := by
  rw [toNat_narrow]
  omega

/-- **A field of 64 bits is faithful** to the numbers of 31 bits, since the others become
negative on the way, or lose bits. -/
theorem toNat_widen_eq_iff (x : Int64) :
    (x.toInt32.toInt64.toUInt64.toNat : ℤ) = x.toInt ↔ 0 ≤ x.toInt ∧ x.toInt < 2 ^ 31 := by
  have hle := x.le_toInt
  have hlt := x.toInt_lt
  rw [toNat_widen, Int.bmod_def]
  constructor
  · intro h
    split at h <;> omega
  · rintro ⟨h0, h31⟩
    rw [if_pos (by omega)]
    omega

/-! ### The route -/

/-- **The job asks for what the body says**: that many cores, gigabytes and hours. -/
structure AsksFor (cpu ram time : ℤ) (spec : JobSpec) : Prop where
  cpuCores : (spec.resources.cpuCores.toNat : ℤ) = cpu
  ramMb : (spec.resources.ramMb.toNat : ℤ) = ram * 1024
  timeLimitSeconds : (spec.timeLimitSeconds.toNat : ℤ) = time * 3600

/-- The numbers that the conversions do not change. -/
structure Representable (cpu ram time : ℤ) : Prop where
  cpu : 0 ≤ cpu ∧ cpu < 2 ^ 32
  ram : 0 ≤ ram * 1024 ∧ ram * 1024 < 2 ^ 31
  time : 0 ≤ time * 3600 ∧ time * 3600 < 2 ^ 32

/-- The products of the route are in range. -/
def ProductsFit (ram time : ℤ) : Prop := FitsInt64 (ram * 1024) ∧ FitsInt64 (time * 3600)

/-- The body has three `int64` values. -/
structure HasNumbers (body : JsonObject) (cpu ram time : Int64) : Prop where
  cpu : body.get "cpu" = .int64 cpu
  ram : body.get "ram" = .int64 ram
  time : body.get "time" = .int64 time

namespace RestRoutes

variable {L : JsonLibrary} {text : String} {body : JsonObject} {cpu ram time : Int64}

/-- The texts that the route reads before the numbers are texts, so it comes to the
products. -/
def readsTexts (body : JsonObject) : Bool :=
  (body.get "name").string?.isSome && (body.get "email").string?.isSome &&
    (body.get "goal").string?.isSome

/-- The container image is a text, if there is one, so the request is not refused after the
products. -/
def readsContainer (body : JsonObject) : Bool :=
  !body.contains "container" || (body.get "container").string?.isSome

/-- **The resources are stored faithfully or refused**: a request that the route sends asks
for what the body says, and if the route comes to the products, none of them overflows. -/
structure FaithfulOrRefused (L : JsonLibrary) (text : String) (body : JsonObject)
    (cpu ram time : Int64) : Prop where
  sent : ∀ request, parsePublicRequest L text = .ok request →
    AsksFor cpu.toInt ram.toInt time.toInt request.requestedSpec
  products : readsTexts body = true → ProductsFit ram.toInt time.toInt

theorem asString_eq_ok {value : JsonValue} {s : String} :
    value.asString L = .ok s ↔ value.string? = some s := by
  cases value with
  | string t =>
    constructor
    · intro h
      exact congrArg some (Except.ok.inj h)
    · intro h
      exact congrArg Except.ok (Option.some.inj h)
  | _ =>
    constructor
    · intro h
      cases h
    · intro h
      cases h

/-- **What the route sends**: a request with these numbers, if all texts are texts. -/
theorem parsePublicRequest_eq (hparse : L.parse text = .ok (.object body))
    (hnum : HasNumbers body cpu ram time) :
    (∀ request, parsePublicRequest L text = .ok request →
      readsTexts body = true ∧ readsContainer body = true ∧
      request.requestedSpec.resources.cpuCores = cpu.toInt32.toUInt32 ∧
      request.requestedSpec.resources.ramMb = (ram * 1024).toInt32.toInt64.toUInt64 ∧
      request.requestedSpec.timeLimitSeconds = (time * 3600).toInt32.toUInt32) ∧
    (readsTexts body = true → readsContainer body = true →
      ∃ request, parsePublicRequest L text = .ok request) := by
  have hbody : parsePublicRequest L text = readPublicRequest L body := by
    rw [parsePublicRequest, hparse]
    rfl
  rw [hbody]
  constructor
  · intro request h
    obtain ⟨name, hname, h⟩ := exists_of_bind_eq_ok h
    obtain ⟨email, hemail, h⟩ := exists_of_bind_eq_ok h
    obtain ⟨goal, hgoal, h⟩ := exists_of_bind_eq_ok h
    obtain ⟨cpu', hcpu, h⟩ := exists_of_bind_eq_ok h
    obtain ⟨ram', hram, h⟩ := exists_of_bind_eq_ok h
    obtain ⟨time', htime, h⟩ := exists_of_bind_eq_ok h
    obtain ⟨container, hcontainer, h⟩ := exists_of_bind_eq_ok h
    rw [hnum.cpu] at hcpu
    rw [hnum.ram] at hram
    rw [hnum.time] at htime
    cases hcpu
    cases hram
    cases htime
    cases h
    refine ⟨?_, ?_, rfl, rfl, rfl⟩
    · rw [readsTexts, asString_eq_ok.mp hname, asString_eq_ok.mp hemail, asString_eq_ok.mp hgoal]
      rfl
    · rw [readContainer] at hcontainer
      rw [readsContainer]
      cases hc : body.contains "container" with
      | false => rfl
      | true =>
        rw [if_pos hc, asString_eq_ok] at hcontainer
        rw [hcontainer]
        rfl
  · intro htexts hcontainer
    rw [readsTexts, Bool.and_eq_true, Bool.and_eq_true] at htexts
    obtain ⟨⟨hname, hemail⟩, hgoal⟩ := htexts
    obtain ⟨name, hname⟩ := Option.isSome_iff_exists.mp hname
    obtain ⟨email, hemail⟩ := Option.isSome_iff_exists.mp hemail
    obtain ⟨goal, hgoal⟩ := Option.isSome_iff_exists.mp hgoal
    have himage : ∃ image, readContainer L body = .ok image := by
      rw [readContainer]
      split
      · rename_i hc
        rw [readsContainer, hc, Bool.not_true, Bool.false_or] at hcontainer
        obtain ⟨image, himage⟩ := Option.isSome_iff_exists.mp hcontainer
        exact ⟨image, asString_eq_ok.mpr himage⟩
      · exact ⟨"", rfl⟩
    obtain ⟨image, himage⟩ := himage
    rw [readPublicRequest, asString_eq_ok.mpr hname, asString_eq_ok.mpr hemail,
      asString_eq_ok.mpr hgoal, hnum.cpu, hnum.ram, hnum.time, himage]
    exact ⟨_, rfl⟩

/-- The job asks for what the body says just if the numbers are representable, provided that
the products do not overflow. -/
theorem asksFor_iff {spec : JobSpec} (hfit : ProductsFit ram.toInt time.toInt)
    (hcpu : spec.resources.cpuCores = cpu.toInt32.toUInt32)
    (hram : spec.resources.ramMb = (ram * 1024).toInt32.toInt64.toUInt64)
    (htime : spec.timeLimitSeconds = (time * 3600).toInt32.toUInt32) :
    AsksFor cpu.toInt ram.toInt time.toInt spec ↔
      Representable cpu.toInt ram.toInt time.toInt := by
  have hmb : (ram * 1024).toInt = ram.toInt * 1024 := toInt_mul_of_fits hfit.1
  have hsec : (time * 3600).toInt = time.toInt * 3600 := toInt_mul_of_fits hfit.2
  have hcores := toNat_narrow_eq_iff cpu
  have hmem := toNat_widen_eq_iff (ram * 1024)
  have hlimit := toNat_narrow_eq_iff (time * 3600)
  rw [← hcpu] at hcores
  rw [hmb, ← hram] at hmem
  rw [hsec, ← htime] at hlimit
  constructor
  · rintro ⟨hc, hr, ht⟩
    exact ⟨hcores.mp hc, hmem.mp hr, hlimit.mp ht⟩
  · rintro ⟨hc, hr, ht⟩
    exact ⟨hcores.mpr hc, hmem.mpr hr, hlimit.mpr ht⟩

/-- **The resources are stored faithfully or refused** if and only if the route does not come
to the products, or they do not overflow and it refuses the request after them, or all
numbers are representable. -/
theorem resources_faithful_iff (hparse : L.parse text = .ok (.object body))
    (hnum : HasNumbers body cpu ram time) :
    FaithfulOrRefused L text body cpu ram time ↔
      (readsTexts body = true → ProductsFit ram.toInt time.toInt ∧
        (readsContainer body = true → Representable cpu.toInt ram.toInt time.toInt)) := by
  obtain ⟨hsent, hsends⟩ := parsePublicRequest_eq hparse hnum
  constructor
  · rintro ⟨hfaithful, hfit⟩ htexts
    refine ⟨hfit htexts, fun hcontainer => ?_⟩
    obtain ⟨request, hrequest⟩ := hsends htexts hcontainer
    obtain ⟨-, -, hcpu, hram, htime⟩ := hsent request hrequest
    exact (asksFor_iff (hfit htexts) hcpu hram htime).mp (hfaithful request hrequest)
  · intro h
    refine ⟨fun request hrequest => ?_, fun htexts => (h htexts).1⟩
    obtain ⟨htexts, hcontainer, hcpu, hram, htime⟩ := hsent request hrequest
    exact (asksFor_iff (h htexts).1 hcpu hram htime).mpr ((h htexts).2 hcontainer)

end RestRoutes

/-! ### A visitor's request -/

/-- What the visitor's text says: one core, two gigabytes, three hours. -/
def visitorsBody : JsonObject :=
  [("name", .string "Ann"), ("email", .string "ann@example.org"), ("goal", .string "thesis"),
    ("cpu", .int64 1), ("ram", .int64 2), ("time", .int64 3)]

/-- The law at work. -/
theorem resources_faithful_visitor :
    RestRoutes.FaithfulOrRefused visitorsLibrary visitorsText visitorsBody 1 2 3 := by
  refine (RestRoutes.resources_faithful_iff rfl ⟨rfl, rfl, rfl⟩).mpr fun _ => ⟨?_, fun _ => ?_⟩
  · exact ⟨by decide, by decide⟩
  · exact ⟨by decide, by decide, by decide⟩

/-- What a greedy visitor's body says: `2 ^ 22` gigabytes, for no time. -/
def greedyBody : JsonObject :=
  [("name", .string "Bob"), ("email", .string "bob@example.org"), ("goal", .string "thesis"),
    ("cpu", .int64 1), ("ram", .int64 4194304), ("time", .int64 0)]

/-- The library, known at a body. -/
def libraryOf (body : JsonObject) : JsonLibrary :=
  { visitorsLibrary with parse := fun _ => .ok (.object body) }

/-- **A request for more than fits asks for nothing**: it is accepted, and the job it stores
asks for no memory at all. -/
theorem resources_lost :
    (∃ request, RestRoutes.parsePublicRequest (libraryOf greedyBody) "" = .ok request ∧
      request.requestedSpec.resources.ramMb = 0) ∧
    ¬ RestRoutes.FaithfulOrRefused (libraryOf greedyBody) "" greedyBody 1 4194304 0 := by
  have hparse : ∃ request, RestRoutes.parsePublicRequest (libraryOf greedyBody) "" = .ok request ∧
      request.requestedSpec.resources.ramMb = 0 := ⟨_, rfl, by decide⟩
  refine ⟨hparse, fun h => ?_⟩
  obtain ⟨request, hrequest, hram⟩ := hparse
  have hasks := (h.sent request hrequest).ramMb
  rw [hram] at hasks
  exact absurd hasks (by decide)

end CertOS
