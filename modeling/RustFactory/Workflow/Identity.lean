import RustFactory.Lib.Framing
import RustFactory.Workflow.Runner

/-!
# Workflows: the material of a start's identity

The id of a run is derived from the parts of its start's identity with a NUL between them.  The run
key may hold that mark itself.  It stands between parts that cannot: the ids and the version in front
of it are read up to their marks, and the digest behind it has a fixed length.
-/

namespace RustFactory.Workflow

open RustFactory.Lib RustFactory.Agent

/-- The text of a digest: 64 hexadecimal digits. -/
def IsDigest (value : String) : Prop := byteLen value = 64 ∧ (utf8 value).all isAsciiHexdigit

instance (value : String) : Decidable (IsDigest value) := inferInstanceAs (Decidable (_ ∧ _))

theorem nul_notMem_id (id : LogicalId) : 0 ∉ utf8 id.asStr := by
  have hvalid := id.valid
  unfold isId at hvalid
  rw [Bool.and_eq_true] at hvalid
  cases hbytes : utf8 id.asStr with
  | nil => exact List.not_mem_nil
  | cons first rest =>
    rw [hbytes] at hvalid
    obtain ⟨hfirst, hrest⟩ := (Bool.and_eq_true _ _).mp hvalid.2
    intro hmem
    rcases List.mem_cons.mp hmem with rfl | hmem
    · exact absurd hfirst (by decide)
    · exact absurd (List.all_eq_true.mp hrest 0 hmem) (by decide)

theorem LogicalId.eq_of_utf8 {a b : LogicalId} (h : utf8 a.asStr = utf8 b.asStr) : a = b := by
  cases a
  cases b
  cases utf8_injective h
  rfl

theorem utf8_identityMaterial (identity : StartIdentity) :
    utf8 (identityMaterial identity) =
      utf8 identity.key.tenantId.asStr ++ 0 :: (utf8 identity.key.workflowId.asStr ++
        0 :: (utf8 identity.key.workflowVersion.asStr ++
          0 :: (utf8 identity.key.runKey ++ 0 :: utf8 identity.inputDigest))) := by
  have hmark : utf8 "\x00" = [0] := by decide +kernel
  unfold identityMaterial
  simp only [utf8_append, hmark, List.append_assoc, List.cons_append, List.nil_append]

/-- The material determines the identity, as long as the digests have one length. -/
theorem eq_of_identityMaterial {a b : StartIdentity}
    (hlength : byteLen a.inputDigest = byteLen b.inputDigest)
    (h : identityMaterial a = identityMaterial b) : a = b := by
  have hbytes := congrArg utf8 h
  rw [utf8_identityMaterial, utf8_identityMaterial] at hbytes
  have hversion : ∀ version : WorkflowVersion, 0 ∉ utf8 version.asStr := by
    rintro ⟨⟩
    decide +kernel
  obtain ⟨htenant, hbytes⟩ := append_cons_inj_of_mark (nul_notMem_id _) (nul_notMem_id _) hbytes
  obtain ⟨hworkflow, hbytes⟩ := append_cons_inj_of_mark (nul_notMem_id _) (nul_notMem_id _) hbytes
  obtain ⟨-, hbytes⟩ := append_cons_inj_of_mark (hversion _) (hversion _) hbytes
  -- the run key may hold the mark, so the rest is read from its end
  obtain ⟨hrunKey, hdigest⟩ := List.append_inj' hbytes (congrArg Nat.succ hlength)
  obtain ⟨⟨tenant, workflow, ⟨⟩, runKey⟩, digest⟩ := a
  obtain ⟨⟨tenant', workflow', ⟨⟩, runKey'⟩, digest'⟩ := b
  obtain rfl : tenant = tenant' := LogicalId.eq_of_utf8 htenant
  obtain rfl : workflow = workflow' := LogicalId.eq_of_utf8 hworkflow
  obtain rfl : runKey = runKey' := utf8_injective hrunKey
  obtain rfl : digest = digest' := utf8_injective (List.tail_eq_of_cons_eq hdigest)
  rfl

theorem isDigest_inputDigest (p : Platform) (canonicalInput : String) :
    IsDigest (p.inputDigest canonicalInput) :=
  ⟨byteLen_hexDigest _ _, all_isAsciiHexdigit _ _⟩

/-- **Different start identities have different material.**  The identities of two calls have one
material only if the calls agree in all that the identity is about, unless the hash collides on their
inputs. -/
theorem identityMaterial_injective (p : Platform) :
    (∀ a b : StartIdentity, IsDigest a.inputDigest → IsDigest b.inputDigest →
      identityMaterial a = identityMaterial b → a = b) ∧
    ∀ (call call' : StartCall) (input input' : String),
      (p.sha256.digest (utf8 input) = p.sha256.digest (utf8 input') → utf8 input = utf8 input') →
      identityMaterial (startIdentity p call input) =
        identityMaterial (startIdentity p call' input') →
      call.context.tenantId = call'.context.tenantId ∧ call.workflowId = call'.workflowId ∧
        call.version = call'.version ∧ call.runKey = call'.runKey ∧ input = input' := by
  refine ⟨fun a b ha hb h => eq_of_identityMaterial (ha.1.trans hb.1.symm) h, ?_⟩
  intro call call' input input' hcollision h
  have hidentity : startIdentity p call input = startIdentity p call' input' :=
    eq_of_identityMaterial ((isDigest_inputDigest p input).1.trans
      (isDigest_inputDigest p input').1.symm) h
  unfold startIdentity at hidentity
  rw [StartIdentity.mk.injEq, StartKey.mk.injEq] at hidentity
  obtain ⟨⟨htenant, hworkflow, hversion, hrunKey⟩, hdigest⟩ := hidentity
  refine ⟨htenant, hworkflow, hversion, hrunKey, utf8_injective (hcollision ?_)⟩
  exact Sha256.hexDigest_eq_iff.mp hdigest

/-- A start of the sample's workflow under a run key. -/
def sampleIdentity (runKey : String) : StartIdentity where
  key := ⟨⟨"tenant", .refl true⟩, ⟨"workflow", .refl true⟩, .v1, runKey⟩
  inputDigest := samplePlatform.inputDigest "\x7b\x7d"

/-- A NUL more in the run key, and another input, are seen in the material. -/
theorem identityMaterial_injective_sample :
    identityMaterial (sampleIdentity "key\x00") ≠ identityMaterial (sampleIdentity "key") ∧
      identityMaterial (startIdentity samplePlatform
          (sampleStart "\x7b\x7d" 64 [] (.error .adapterFailure)) "\x7b\x7d") ≠
        identityMaterial (startIdentity samplePlatform
          (sampleStart "[]" 64 [] (.error .adapterFailure)) "[]") := by
  obtain ⟨hidentities, hstarts⟩ := identityMaterial_injective samplePlatform
  constructor
  · intro h
    have heq := hidentities (sampleIdentity "key\x00") (sampleIdentity "key")
      (isDigest_inputDigest _ _) (isDigest_inputDigest _ _) h
    exact absurd (congrArg (fun identity => identity.key.runKey) heq) (by decide +kernel)
  · intro h
    have hne : samplePlatform.sha256.digest (utf8 "\x7b\x7d") ≠
        samplePlatform.sha256.digest (utf8 "[]") := by
      decide +kernel
    obtain ⟨-, -, -, -, hinput⟩ := hstarts _ _ _ _ (fun heq => absurd heq hne) h
    exact absurd hinput (by decide +kernel)

end RustFactory.Workflow
