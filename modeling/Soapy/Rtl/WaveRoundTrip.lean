import Soapy.Rtl.WaveChunks

/-! # Recording and reading back

The reader finds what was recorded. It does not look at `nBlockAlign`, which the writer fills with
the channels alone.
-/

namespace Soapy.Rtl.Wave

open Lib

theorem chunk_hdr.bytes_length {h : chunk_hdr} (ID : h.ID.length = 4) : h.bytes.length = 8 := by
  simp [chunk_hdr.bytes, ID, le32_length]

theorem Wind_SystemTime.bytes_length (t : Wind_SystemTime) : t.bytes.length = 16 := by
  simp [Wind_SystemTime.bytes, le16_length]

/-- The header's chunks have the names that `wavePrepareHeader` gives them. -/
structure waveFileHeader.Named (h : waveFileHeader) : Prop where
  riff : h.r.hdr.ID = ascii "RIFF"
  waveID : h.r.waveID = ascii "WAVE"
  fmt : h.f.hdr.ID = ascii "fmt "
  fmt_size : h.f.hdr.size = 16
  auxi : h.a.hdr.ID = ascii "auxi"
  auxi_size : h.a.hdr.size = 68
  data : h.d.ID = ascii "data"

namespace waveFileHeader.Named

variable {h : waveFileHeader} (named : h.Named)

include named

theorem riff_length : h.r.bytes.length = 12 := by
  simp [riff_chunk.bytes, chunk_hdr.bytes, named.riff, named.waveID, le32_length, ascii]

theorem fmt_length : h.f.bytes.length = 24 := by
  simp [fmt_chunk.bytes, chunk_hdr.bytes, named.fmt, le32_length, le16_length, ascii]

theorem auxi_length : h.a.bytes.length = 76 := by
  simp [auxi_chunk.bytes, chunk_hdr.bytes, named.auxi, le32_length,
    Wind_SystemTime.bytes_length, ascii]

theorem data_length : h.d.bytes.length = 8 := by
  simp [chunk_hdr.bytes, named.data, le32_length, ascii]

theorem length : h.bytes.length = headerSize := by
  simp [waveFileHeader.bytes, named.riff_length, named.fmt_length, named.auxi_length,
    named.data_length, headerSize]

end waveFileHeader.Named

theorem u16At_behind (a b : Bytes) (i : Nat) : u16At (a ++ b) (a.length + i) = u16At b i := by
  rw [u16At, u16At, ← List.drop_drop, List.drop_left]

theorem u32At_behind (a b : Bytes) (i : Nat) : u32At (a ++ b) (a.length + i) = u32At b i := by
  rw [u32At, u32At, ← List.drop_drop, List.drop_left]

theorem chunk_hdr.ID_at {h : chunk_hdr} (ID : h.ID.length = 4) (after : Bytes) :
    (h.bytes ++ after).take 4 = h.ID := by
  rw [chunk_hdr.bytes, List.append_assoc, ← ID, List.take_left]

theorem chunk_hdr.size_at {h : chunk_hdr} (ID : h.ID.length = 4) (after : Bytes) :
    u32At (h.bytes ++ after) 4 = h.size := by
  rw [chunk_hdr.bytes, List.append_assoc, u32At_le32 ID]

namespace fmt_chunk

variable {f : fmt_chunk} (ID : f.hdr.ID.length = 4) (after : Bytes)

include ID

theorem nChannels_at : u16At (f.bytes ++ after) 10 = f.nChannels.toUInt16 := by
  have before : (f.hdr.bytes ++ le16 f.wFormatTag.toUInt16).length = 10 := by
    simp [chunk_hdr.bytes_length ID, le16_length]
  simpa only [fmt_chunk.bytes, List.append_assoc] using u16At_le16 before f.nChannels.toUInt16 _

theorem nSamplesPerSec_at : u32At (f.bytes ++ after) 12 = f.nSamplesPerSec.toUInt32 := by
  have before : (f.hdr.bytes ++ le16 f.wFormatTag.toUInt16 ++ le16 f.nChannels.toUInt16).length =
      12 := by
    simp [chunk_hdr.bytes_length ID, le16_length]
  simpa only [fmt_chunk.bytes, List.append_assoc] using
    u32At_le32 before f.nSamplesPerSec.toUInt32 _

theorem nAvgBytesPerSec_at : u32At (f.bytes ++ after) 16 = f.nAvgBytesPerSec.toUInt32 := by
  have before : (f.hdr.bytes ++ le16 f.wFormatTag.toUInt16 ++ le16 f.nChannels.toUInt16 ++
      le32 f.nSamplesPerSec.toUInt32).length = 16 := by
    simp [chunk_hdr.bytes_length ID, le16_length, le32_length]
  simpa only [fmt_chunk.bytes, List.append_assoc] using
    u32At_le32 before f.nAvgBytesPerSec.toUInt32 _

theorem nBlockAlign_at : u16At (f.bytes ++ after) 20 = f.nBlockAlign.toUInt16 := by
  have before : (f.hdr.bytes ++ le16 f.wFormatTag.toUInt16 ++ le16 f.nChannels.toUInt16 ++
      le32 f.nSamplesPerSec.toUInt32 ++ le32 f.nAvgBytesPerSec.toUInt32).length = 20 := by
    simp [chunk_hdr.bytes_length ID, le16_length, le32_length]
  simpa only [fmt_chunk.bytes, List.append_assoc] using u16At_le16 before f.nBlockAlign.toUInt16 _

theorem nBitsPerSample_at : u16At (f.bytes ++ after) 22 = f.nBitsPerSample.toUInt16 := by
  have before : (f.hdr.bytes ++ le16 f.wFormatTag.toUInt16 ++ le16 f.nChannels.toUInt16 ++
      le32 f.nSamplesPerSec.toUInt32 ++ le32 f.nAvgBytesPerSec.toUInt32 ++
      le16 f.nBlockAlign.toUInt16).length = 22 := by
    simp [chunk_hdr.bytes_length ID, le16_length, le32_length]
  simpa only [fmt_chunk.bytes, List.append_assoc] using
    u16At_le16 before f.nBitsPerSample.toUInt16 _

end fmt_chunk

/-- Behind its header. -/
def auxi_chunk.body (a : auxi_chunk) : Bytes :=
  a.StartTime.bytes ++ a.StopTime.bytes ++ le32 a.centerFreq ++
    le32 a.ADsamplerate ++ le32 a.IFFrequency ++ le32 a.Bandwidth ++ le32 a.IQOffset ++
    le32 a.Unused2 ++ le32 a.Unused3 ++ le32 a.Unused4 ++ le32 a.Unused5

theorem auxi_chunk.body_length (a : auxi_chunk) : a.body.length = auxiSize := by
  simp [auxi_chunk.body, Wind_SystemTime.bytes_length, le32_length, auxiSize]

theorem auxi_chunk.centerFreq_at (a : auxi_chunk) : u32At a.body 32 = a.centerFreq := by
  have before : (a.StartTime.bytes ++ a.StopTime.bytes).length = 32 := by
    simp [Wind_SystemTime.bytes_length]
  simpa only [auxi_chunk.body, List.append_assoc] using u32At_le32 before a.centerFreq _

theorem waveFileHeader.Named.reads {h : waveFileHeader} (named : h.Named) (samples : Bytes) :
    waveReadHeader (h.bytes ++ samples) =
      readData h.f.bytes (some h.a.body, h.d.size, samples) := by
  have riff_ID : h.r.hdr.ID.length = 4 := named.riff ▸ rfl
  have fmt_ID : h.f.hdr.ID.length = 4 := named.fmt ▸ rfl
  have auxi_ID : h.a.hdr.ID.length = 4 := named.auxi ▸ rfl
  have data_ID : h.d.ID.length = 4 := named.data ▸ rfl
  have opening : Opening h.r.bytes h.f.bytes := {
    riff_length := named.riff_length
    riff_ID := (chunk_hdr.ID_at riff_ID _).trans named.riff
    waveID := by
      rw [riff_chunk.bytes, ← chunk_hdr.bytes_length riff_ID, List.drop_left, named.waveID]
      rfl
    fmt_length := named.fmt_length
    fmt_ID := by
      simp [fmt_chunk.bytes, chunk_hdr.ID_at fmt_ID, named.fmt]
    fmt_size := by
      simp only [fmt_chunk.bytes, List.append_assoc, chunk_hdr.size_at fmt_ID, named.fmt_size] }
  have auxi : h.a.hdr.bytes.take 4 = ascii "auxi" := by
    simpa only [List.append_nil, named.auxi] using chunk_hdr.ID_at auxi_ID []
  have auxi_size : u32At h.a.hdr.bytes 4 = 68 := by
    simpa only [List.append_nil, named.auxi_size] using chunk_hdr.size_at auxi_ID []
  have stride : Stride h.a.hdr.bytes h.a.body := {
    header := chunk_hdr.bytes_length auxi_ID
    other := auxi ▸ (by decide)
    size := by
      rw [h.a.body_length, auxi_size]
      rfl
    some_bytes := h.a.body_length ▸ (by decide)
    small := h.a.body_length ▸ (by decide)
    auxi := fun _ => Nat.le_of_eq h.a.body_length.symm }
  have data : IsDataHeader h.d.bytes h.d.size := {
    left := chunk_hdr.bytes_length data_ID
    right := ⟨by simpa only [List.append_nil, named.data] using chunk_hdr.ID_at data_ID [],
      by simpa only [List.append_nil] using (chunk_hdr.size_at data_ID []).symm⟩ }
  have parts : h.bytes ++ samples =
      h.r.bytes ++ h.f.bytes ++ (h.a.hdr.bytes ++ h.a.body ++ (h.d.bytes ++ samples)) := by
    simp [waveFileHeader.bytes, auxi_chunk.bytes, auxi_chunk.body]
  rw [parts, opening.reads, readChunks_over stride, readChunks_data data, if_pos auxi,
    List.take_of_length_le (Nat.le_of_eq h.a.body_length)]
  rfl

/-- The calls between the header and its end, each with what its buffer holds. -/
inductive Call where
  | waveWriteSamples (vpData : Bytes) (numSamples : Nat)
  | waveWriteFrames (vpData : Bytes) (numFrames : Nat)

def Call.run (w : Writer) : Call → Writer
  | .waveWriteSamples vpData numSamples => Wave.waveWriteSamples w vpData numSamples
  | .waveWriteFrames vpData numFrames => Wave.waveWriteFrames w vpData numFrames

def Call.size (bytesPerSample channels : Nat) : Call → Nat
  | .waveWriteSamples _ numSamples => bytesPerSample * numSamples
  | .waveWriteFrames _ numFrames => channels * bytesPerSample * numFrames

def Call.vpData : Call → Bytes
  | .waveWriteSamples vpData _ => vpData
  | .waveWriteFrames vpData _ => vpData

def Call.data (bytesPerSample channels : Nat) (c : Call) : Bytes :=
  c.vpData.take (c.size bytesPerSample channels)

/-- The buffer holds what the call says. -/
def Call.Whole (bytesPerSample channels : Nat) (c : Call) : Prop :=
  c.size bytesPerSample channels ≤ c.vpData.length

def record (now later : Wind_SystemTime) (samplerate freq : UInt32) (bitsPerSample numChannels : Nat)
    (calls : List Call) : Bytes :=
  (waveFinalizeHeader later
    (calls.foldl Call.run (waveWriteHeader now samplerate freq bitsPerSample numChannels))).file.bytes

def recorded (bytesPerSample channels : Nat) (calls : List Call) : Bytes :=
  calls.flatMap (Call.data bytesPerSample channels)

structure Writer.Holds (w : Writer) (hdr : waveFileHeader) (samples : Bytes) : Prop where
  waveHdr : w.waveHdr = hdr
  waveDataSize : w.waveDataSize = UInt32.ofNat samples.length
  bytes : w.file.bytes = hdr.bytes ++ samples
  pos : w.file.pos = w.file.bytes.length

variable {hdr : waveFileHeader} {w : Writer}

theorem Writer.Holds.items {samples : Bytes}
    (holds : w.Holds hdr samples) {vpData : Bytes} {size num : Nat}
    (whole : size * num ≤ vpData.length) :
    (w.items vpData size num).Holds hdr (samples ++ vpData.take (size * num)) where
  waveHdr := holds.waveHdr
  waveDataSize := by
    rw [List.length_append, List.length_take_of_le whole, UInt32.ofNat_add, ← holds.waveDataSize]
    rfl
  bytes := by
    simp only [Writer.items, File.fwrite, holds.pos, List.take_length, holds.bytes,
      List.append_assoc, List.drop_eq_nil_of_le (Nat.le_add_right _ _), List.append_nil]
  pos := by
    simp [Writer.items, File.fwrite, holds.pos, List.drop_eq_nil_of_le (Nat.le_add_right _ _)]

/-- What the code is used with. -/
structure Format (bits channels : Nat) : Prop where
  bits : bits = 8 ∨ bits = 16
  some_channel : 1 ≤ channels
  channels_small : channels ≤ 32767

structure waveFileHeader.Counts (h : waveFileHeader) (bits channels : Nat) : Prop where
  bits : h.f.nBitsPerSample = Int16.ofInt bits
  channels : h.f.nChannels = Int16.ofInt channels

theorem Format.channels_toInt {bits channels : Nat} (format : Format bits channels) :
    (Int16.ofInt channels).toInt = channels := by
  have small := format.channels_small
  rw [Int16.toInt_ofInt_of_le (by simp) (by simp; omega)]

theorem Format.itemSize {bits channels : Nat} (format : Format bits channels) {bytes : Nat}
    (few : bytes ≤ 2) : Wave.itemSize channels bytes = channels * bytes := by
  have small := format.channels_small
  have product : channels * bytes ≤ 32767 * 2 := Nat.mul_le_mul small few
  rw [Wave.itemSize, UInt64.toNat_mul, toNat_ofInt (by omega) (by omega),
    UInt64.toNat_ofNat', Int.toNat_natCast, Nat.mod_eq_of_lt (a := bytes) (by omega),
    Nat.mod_eq_of_lt (by omega)]

theorem Call.run_holds {bits channels : Nat} (format : Format bits channels) {samples : Bytes} (holds : w.Holds hdr samples)
    (counts : hdr.Counts bits channels) {c : Call} (whole : c.Whole (bits / 8) channels) :
    (c.run w).Holds hdr (samples ++ c.data (bits / 8) channels) := by
  have nBits := holds.waveHdr ▸ counts.bits
  have nChannels := holds.waveHdr ▸ counts.channels
  cases c with
  | waveWriteSamples vpData numSamples =>
    rcases format.bits with rfl | rfl
    · rw [Call.run, Wave.waveWriteSamples, nBits, if_pos (by decide)]
      exact holds.items whole
    · rw [Call.run, Wave.waveWriteSamples, nBits, if_neg (by decide), if_pos (by decide)]
      exact holds.items whole
  | waveWriteFrames vpData numFrames =>
    rcases format.bits with rfl | rfl
    · rw [Call.run, Wave.waveWriteFrames, nBits, nChannels, format.channels_toInt, if_pos (by decide), format.itemSize (by decide)]
      exact holds.items whole
    · rw [Call.run, Wave.waveWriteFrames, nBits, nChannels, format.channels_toInt, if_neg (by decide), if_pos (by decide),
        format.itemSize (by decide)]
      exact holds.items whole

theorem run_holds {bits channels : Nat} (format : Format bits channels)
    (counts : hdr.Counts bits channels) (calls : List Call)
    (whole : ∀ c ∈ calls, c.Whole (bits / 8) channels) {samples : Bytes}
    (holds : w.Holds hdr samples) :
    (calls.foldl Call.run w).Holds hdr (samples ++ recorded (bits / 8) channels calls) := by
  induction calls generalizing w samples with
  | nil => simpa [recorded] using holds
  | cons c calls ih =>
    have first := Call.run_holds format holds counts (whole c List.mem_cons_self)
    have rest := ih (fun c' member => whole c' (List.mem_cons_of_mem c member)) first
    simpa only [recorded, List.flatMap_cons, List.append_assoc, List.foldl_cons] using rest

theorem wavePrepareHeader_named (now : Wind_SystemTime) (samplerate freq : UInt32) (bits channels : Int) :
    (wavePrepareHeader now samplerate freq bits channels).Named where
  riff := rfl
  waveID := rfl
  fmt := rfl
  fmt_size := rfl
  auxi := rfl
  auxi_size := rfl
  data := rfl

theorem waveWriteHeader_holds (now : Wind_SystemTime) (samplerate freq : UInt32) (bits channels : Int) :
    (waveWriteHeader now samplerate freq bits channels).Holds
      (wavePrepareHeader now samplerate freq bits channels) [] where
  waveHdr := rfl
  waveDataSize := rfl
  bytes := by simp [waveWriteHeader, File.fwrite]
  pos := by simp [waveWriteHeader, File.fwrite]

/-- The header as `waveFinalizeHeader` leaves it. -/
def waveFileHeader.finished (h : waveFileHeader) (later : Wind_SystemTime) (size : UInt32) :
    waveFileHeader :=
  { h with
    a := { h.a with StopTime := later }
    d := { h.d with size := size }
    r := { h.r with hdr := { h.r.hdr with size := h.r.hdr.size + size } } }

theorem waveFileHeader.Named.finished {h : waveFileHeader} (named : h.Named) (later : Wind_SystemTime)
    (size : UInt32) : (h.finished later size).Named :=
  { named with }

theorem waveFinalizeHeader_bytes {samples : Bytes}
    (holds : w.Holds hdr samples) (named : hdr.Named) (later : Wind_SystemTime) :
    (waveFinalizeHeader later w).file.bytes =
      (hdr.finished later (UInt32.ofNat samples.length)).bytes ++ samples := by
  have length := (named.finished later (UInt32.ofNat samples.length)).length
  have past : (waveFinalizeHeader later w).file.bytes =
      (w.file.rewind.fwrite (hdr.finished later (UInt32.ofNat samples.length)).bytes).bytes := by
    rw [waveFinalizeHeader, holds.waveHdr, holds.waveDataSize]
    rfl
  rw [past, File.fwrite]
  simp [File.rewind, length, holds.bytes, ← named.length]

/-- The header of a recording of so many bytes. -/
def header (now later : Wind_SystemTime) (samplerate freq : UInt32) (bits channels : Nat)
    (size : UInt32) : waveFileHeader :=
  (wavePrepareHeader now samplerate freq bits channels).finished later size

theorem header_named (now later : Wind_SystemTime) (samplerate freq : UInt32) (bits channels : Nat)
    (size : UInt32) : (header now later samplerate freq bits channels size).Named :=
  (wavePrepareHeader_named now samplerate freq bits channels).finished later size

theorem record_bytes {bits channels : Nat} (format : Format bits channels)
    (now later : Wind_SystemTime) (samplerate freq : UInt32) {calls : List Call}
    (whole : ∀ c ∈ calls, c.Whole (bits / 8) channels) :
    record now later samplerate freq bits channels calls =
      (header now later samplerate freq bits channels
          (UInt32.ofNat (recorded (bits / 8) channels calls).length)).bytes ++
        recorded (bits / 8) channels calls :=
  waveFinalizeHeader_bytes
    (run_holds format ⟨rfl, rfl⟩ calls whole (waveWriteHeader_holds now samplerate freq bits channels))
    (wavePrepareHeader_named now samplerate freq bits channels) later

section Finished

variable {bits channels : Nat} (format : Format bits channels) (now later : Wind_SystemTime)
  (samplerate freq : UInt32) {data : Bytes} (total : data.length < 2 ^ 32 - 200)

include format

theorem Format.bits_toInt : (Int16.ofInt bits).toInt = bits := by
  rcases format.bits with rfl | rfl <;> rfl

theorem Format.frame_pos : 0 < channels * (bits / 8) :=
  Nat.mul_pos format.some_channel (by rcases format.bits with rfl | rfl <;> decide)

theorem header_reads (small : data.length < 2 ^ 32) :
    ∃ info, waveReadHeader ((header now later samplerate freq bits channels
          (UInt32.ofNat data.length)).bytes ++ data) = .ok info ∧
      info.srate = samplerate ∧ info.freq = freq ∧ info.bitsPerSample = bits ∧
        info.numChannels = channels ∧
          info.nFrames.toNat = data.length / (channels * (bits / 8)) ∧ info.unread = data := by
  have bits_small : 8 ≤ bits ∧ bits ≤ 16 := by
    rcases format.bits with rfl | rfl <;> decide
  have channels_small := format.channels_small
  have some_channel := format.some_channel
  have read := (header_named now later samplerate freq bits channels
    (UInt32.ofNat data.length)).reads data
  have fmt_ID : (header now later samplerate freq bits channels
    (UInt32.ofNat data.length)).f.hdr.ID.length = 4 := rfl
  have nBits := fmt_chunk.nBitsPerSample_at fmt_ID []
  have nChannels := fmt_chunk.nChannels_at fmt_ID []
  have rate := fmt_chunk.nSamplesPerSec_at fmt_ID []
  have size := UInt32.toNat_ofNat_of_lt' small
  have frame : ((bits : Int) + 7).tdiv 8 * channels = (channels * (bits / 8) : Nat) := by
    rcases format.bits with rfl | rfl
    · simp
    · simp [Int.mul_comm]
  rw [List.append_nil] at nBits nChannels rate
  have some_frame : frameSize bits channels ≠ 0 := by
    rw [Ne, frameSize_eq_zero_iff (by omega) (by omega) (by omega) (by omega)]
    omega
  have count := nFrames_toNat (UInt32.ofNat data.length) bits channels
    (by omega) (by omega) (by omega) (by omega)
  rw [frame, Int.toNat_natCast, size] at count
  have bits_read : (u16At (header now later samplerate freq bits channels
      (UInt32.ofNat data.length)).f.bytes 22).toInt16.toInt = bits := by
    rw [nBits, Int16.toInt16_toUInt16]
    exact format.bits_toInt
  have channels_read : (u16At (header now later samplerate freq bits channels
      (UInt32.ofNat data.length)).f.bytes 10).toInt16.toInt = channels := by
    rw [nChannels, Int16.toInt16_toUInt16]
    exact format.channels_toInt
  rw [read, readData]
  simp only [bits_read, channels_read]
  rw [if_neg some_frame]
  exact ⟨_, rfl, rate, (auxi_chunk.centerFreq_at _), rfl, rfl, count, rfl⟩

theorem waveReadFrames_reads {info : WaveInfo} (bitsPerSample : info.bitsPerSample = bits)
    (numChannels : info.numChannels = channels) {numFrames : Nat}
    (few : numFrames ≤ info.unread.length / (channels * (bits / 8))) :
    waveReadFrames info numFrames = some
      ⟨0, numFrames, info.unread.take (channels * (bits / 8) * numFrames),
        info.unread.drop (channels * (bits / 8) * numFrames)⟩ := by
  have reads : freadItems (channels * (bits / 8)) numFrames info.unread =
      ⟨0, numFrames, info.unread.take (channels * (bits / 8) * numFrames),
        info.unread.drop (channels * (bits / 8) * numFrames)⟩ := by
    rw [freadItems, if_neg (Nat.ne_of_gt format.frame_pos), Nat.min_eq_left few]
    simp
  rw [← reads, waveReadFrames, bitsPerSample, numChannels]
  rcases format.bits with rfl | rfl
  · rw [if_pos (by decide), format.itemSize (by decide)]
  · rw [if_neg (by decide), if_pos (by decide), format.itemSize (by decide)]

end Finished

structure RoundTrip (samplerate freq : UInt32) (bits channels : Nat) (data file : Bytes) : Prop where
  riffSize : (u32At file 4).toNat = file.length - 8
  nBlockAlign : (u16At file 32).toNat = channels * (bits / 8)
  nAvgBytesPerSec : (u32At file 28).toNat = samplerate.toNat * (u16At file 32).toNat
  read_back : ∃ info, waveReadHeader file = .ok info ∧ info.srate = samplerate ∧ info.freq = freq ∧
    info.bitsPerSample = bits ∧ info.numChannels = channels ∧
      info.nFrames.toNat = data.length / (channels * (bits / 8)) ∧
        ∀ numFrames ≤ info.nFrames.toNat, waveReadFrames info numFrames = some
          ⟨0, numFrames, data.take (channels * (bits / 8) * numFrames),
            data.drop (channels * (bits / 8) * numFrames)⟩

section Fields

variable (h : waveFileHeader) (named : h.Named) (samples : Bytes)

include named

theorem riffSize_at : u32At (h.bytes ++ samples) 4 = h.r.hdr.size := by
  have ID : h.r.hdr.ID.length = 4 := named.riff ▸ rfl
  simpa only [waveFileHeader.bytes, riff_chunk.bytes, List.append_assoc] using
    chunk_hdr.size_at ID _

theorem nAvgBytesPerSec_in_file :
    u32At (h.bytes ++ samples) 28 = h.f.nAvgBytesPerSec.toUInt32 := by
  have ID : h.f.hdr.ID.length = 4 := named.fmt ▸ rfl
  have behind := u32At_behind h.r.bytes (h.f.bytes ++ (h.a.bytes ++ (h.d.bytes ++ samples))) 16
  rw [named.riff_length, fmt_chunk.nAvgBytesPerSec_at ID] at behind
  simpa only [waveFileHeader.bytes, List.append_assoc] using behind

theorem nBlockAlign_in_file : u16At (h.bytes ++ samples) 32 = h.f.nBlockAlign.toUInt16 := by
  have ID : h.f.hdr.ID.length = 4 := named.fmt ▸ rfl
  have behind := u16At_behind h.r.bytes (h.f.bytes ++ (h.a.bytes ++ (h.d.bytes ++ samples))) 20
  rw [named.riff_length, fmt_chunk.nBlockAlign_at ID] at behind
  simpa only [waveFileHeader.bytes, List.append_assoc] using behind

end Fields

theorem channels_toUInt16 {channels : Nat} (small : channels ≤ 32767) :
    (Int16.ofInt channels).toUInt16.toNat = channels := by
  have bits : (Int16.ofInt channels).toUInt16.toNat = (BitVec.ofInt 16 channels).toNat := rfl
  rw [bits, BitVec.toNat_ofInt]
  omega

theorem header_round_trip_iff {bits channels : Nat} (format : Format bits channels)
    (now later : Wind_SystemTime) (samplerate freq : UInt32) {data : Bytes}
    (total : data.length < 2 ^ 32 - 200) :
    RoundTrip samplerate freq bits channels data ((header now later samplerate freq bits channels
        (UInt32.ofNat data.length)).bytes ++ data) ↔
      bits = 8 ∧ samplerate.toNat * channels < 2 ^ 32 := by
  have named := header_named now later samplerate freq bits channels (UInt32.ofNat data.length)
  have align := nBlockAlign_in_file _ named data
  have average := nAvgBytesPerSec_in_file _ named data
  have riff := riffSize_at _ named data
  have some_channel := format.some_channel
  have align_toNat : (u16At ((header now later samplerate freq bits channels
      (UInt32.ofNat data.length)).bytes ++ data) 32).toNat = channels := by
    rw [align]
    exact channels_toUInt16 format.channels_small
  have average_toNat : (u32At ((header now later samplerate freq bits channels
      (UInt32.ofNat data.length)).bytes ++ data) 28).toNat =
        samplerate.toNat * (bits / 8 * channels) % 2 ^ 32 := by
    have written : (header now later samplerate freq bits channels
        (UInt32.ofNat data.length)).f.nAvgBytesPerSec.toUInt32 =
          samplerate * UInt32.ofInt ((bits : Int).tdiv 8 * channels) := rfl
    have bytes : (bits : Int).tdiv 8 * channels = (bits / 8 * channels : Nat) := rfl
    have cast : UInt32.ofInt (bits / 8 * channels : Nat) = UInt32.ofNat (bits / 8 * channels) := by
      rw [← UInt32.toNat_inj, UInt32.ofInt, UInt32.toNat_ofNat', UInt32.toNat_ofNat']
      omega
    rw [average, written, bytes, cast, UInt32.toNat_mul, UInt32.toNat_ofNat', Nat.mul_mod_mod]
  constructor
  · intro trip
    have same := trip.nBlockAlign
    have rate := trip.nAvgBytesPerSec
    rw [align_toNat] at same rate
    rw [average_toNat] at rate
    rcases format.bits with rfl | rfl
    · refine ⟨rfl, ?_⟩
      rw [← rate]
      exact Nat.mod_lt _ (by decide)
    · omega
  · rintro ⟨rfl, fits⟩
    refine ⟨?_, ?_, ?_, ?_⟩
    · have size : (header now later samplerate freq 8 channels
          (UInt32.ofNat data.length)).r.hdr.size = 112 + UInt32.ofNat data.length := rfl
      have small := UInt32.toNat_ofNat_of_lt' (Nat.lt_of_lt_of_le total (by decide))
      have whole : (112 : UInt32).toNat + data.length < 2 ^ 32 := by
        have few : (112 : UInt32).toNat = 112 := rfl
        omega
      rw [riff, List.length_append, named.length, size, UInt32.toNat_add, small,
        Nat.mod_eq_of_lt whole, headerSize, Nat.sub_add_comm (by decide)]
      rfl
    · rw [align_toNat, Nat.mul_one]
    · rw [average_toNat, align_toNat, Nat.one_mul, Nat.mod_eq_of_lt fits]
    · obtain ⟨info, read, rate, frequency, bits, channel, count, unread⟩ :=
        header_reads format now later samplerate freq (by omega : data.length < 2 ^ 32)
      refine ⟨info, read, rate, frequency, bits, channel, count, fun numFrames few => ?_⟩
      rw [waveReadFrames_reads format bits channel (by rw [unread]; omega), unread]

/-- What is recorded with 8 bits at a rate whose bytes a second fit the field is read back, and
the header is right. -/
theorem round_trip_iff {bits channels : Nat} (now later : Wind_SystemTime)
    (samplerate freq : UInt32) (calls : List Call) (format : Format bits channels)
    (whole : ∀ c ∈ calls, c.Whole (bits / 8) channels)
    (total : (recorded (bits / 8) channels calls).length < 2 ^ 32 - 200) :
    RoundTrip samplerate freq bits channels (recorded (bits / 8) channels calls)
        (record now later samplerate freq bits channels calls) ↔
      bits = 8 ∧ samplerate.toNat * channels < 2 ^ 32 := by
  rw [record_bytes format now later samplerate freq whole]
  exact header_round_trip_iff format now later samplerate freq total

def midnight : Wind_SystemTime := ⟨2024, 1, 1, 1, 0, 0, 0, 0⟩

theorem round_trip_mono :
    RoundTrip 8000 100000000 8 1 [1, 2]
      (record midnight midnight 8000 100000000 8 1 [.waveWriteSamples [1, 2] 2]) :=
  (round_trip_iff midnight midnight 8000 100000000 [.waveWriteSamples [1, 2] 2]
    ⟨.inl rfl, by decide, by decide⟩ (by simp [Call.Whole, Call.size, Call.vpData])
      (by decide)).mpr ⟨rfl, by decide⟩

/-- One frame of I and Q with 16 bits: `nBlockAlign` is 2, not 4. -/
theorem not_round_trip :
    ¬ RoundTrip 48000 100000000 16 2 [1, 2, 3, 4]
      (record midnight midnight 48000 100000000 16 2 [.waveWriteFrames [1, 2, 3, 4] 1]) := by
  have format : Format 16 2 := ⟨.inr rfl, by decide, by decide⟩
  rw [record_bytes format midnight midnight 48000 100000000
    (by simp [Call.Whole, Call.size, Call.vpData])]
  exact fun trip => absurd ((header_round_trip_iff format midnight midnight 48000 100000000 (by decide)).mp trip).1 (by decide)

end Soapy.Rtl.Wave
