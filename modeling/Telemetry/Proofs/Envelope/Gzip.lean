/-
A compressed body is read back as what was compressed: each stored block as its content
(`readBlocks_block`), and so all of them as theirs (`unpack?_pack`).
-/
import Telemetry.Envelope.Gzip

namespace Telemetry.Envelope.Gzip

open Text.Utf8 (Octets)

variable {content behind : Octets}

/-- A number of sixteen bits is read back from its two octets. -/
theorem worth_littleEndian {n : Nat} (few : n ≤ blockLimit) :
    (UInt8.ofNat (n % 256)).toNat + 256 * (UInt8.ofNat (n / 256 % 256)).toNat = n := by
  unfold blockLimit at few
  rw [UInt8.toNat_ofNat', UInt8.toNat_ofNat']
  omega

/-- A block is read as its content, with what is behind it. -/
theorem readBlocks_block (last : Bool) (few : content.length ≤ blockLimit) :
    readBlocks (block last content ++ behind) =
      if last then some (content, behind)
      else (readBlocks behind).map fun (others, rest) => (content ++ others, rest) := by
  have length := worth_littleEndian few
  have complement := worth_littleEndian (Nat.sub_le blockLimit content.length)
  have written : block last content ++ behind =
      (if last then 1 else 0) :: UInt8.ofNat (content.length % 256) ::
        UInt8.ofNat (content.length / 256 % 256) :: UInt8.ofNat ((blockLimit - content.length) % 256) ::
        UInt8.ofNat ((blockLimit - content.length) / 256 % 256) :: (content ++ behind) := by
    simp [block, littleEndian]
  rw [written, readBlocks]
  simp only [length, complement]
  -- none of the three reasons to reject a block is there
  have readable : ¬ (1 < (if last then 1 else 0 : UInt8).toNat ∨
      blockLimit - content.length ≠ blockLimit - content.length ∨
      (content ++ behind).length < content.length) := by
    rw [List.length_append]
    cases last <;> simp
  rw [if_neg readable, List.take_left, List.drop_left]
  cases last <;> rfl

theorem readBlocks_blocks (content behind : Octets) :
    readBlocks (blocks content ++ behind) = some (content, behind) := by
  induction content using blocks.induct with
  | case1 content few =>
    rw [blocks, if_pos few, readBlocks_block true few]
    rfl
  | case2 content many ih =>
    have few : (content.take blockLimit).length ≤ blockLimit := List.length_take_le _ _
    rw [blocks, if_neg many, List.append_assoc, readBlocks_block false few, ih]
    simp

/-- What was compressed is read back. -/
theorem unpack?_pack (content : Octets) : unpack? (pack content) = some content := by
  have front : (pack content).take 10 = head := by
    unfold pack
    rw [List.append_assoc]
    exact List.take_left' rfl
  have rest : (pack content).drop 10 = blocks content ++ tail content := by
    unfold pack
    rw [List.append_assoc]
    exact List.drop_left' rfl
  unfold unpack?
  rw [if_pos front, rest, readBlocks_blocks]
  exact if_pos rfl

end Telemetry.Envelope.Gzip
