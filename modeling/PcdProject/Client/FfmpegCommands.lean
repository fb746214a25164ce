import PcdProject.Client.SubmitJob
import PcdProject.Core.CFormat
import PcdProject.Core.CText
import PcdProject.Server.QueueListing

/-!
# The commands of the menu

`process_menu_choice` builds a command for `ffmpeg` from what the user types in. Whatever that is,
the command fits into its buffer.
-/

namespace Pcd

open CFormat

/-! ### The commands -/

/-- `%d` -/
def decimalInt (n : Int32) : Bytes :=
  if n < 0 then 45 :: decimal n.toInt.natAbs else decimal n.toInt.toNat

/-- The type `float` as far as the commands use it: `1/x`, `x/2` and the text of `%.nf`. -/
structure FloatType where
  Value : Type
  recip : Value → Value
  half : Value → Value
  fixed : ℕ → Value → Bytes

section Commands

variable (F : FloatType) (size : ℕ) (input output : Bytes)

def buildTrimCommand (startTime endTime : Bytes) : Bytes :=
  snprintfText size (cstr "ffmpeg -i %s -ss %s -to %s -c copy %s")
    [input, startTime, endTime, output]

def buildResizeCommand (width height : Int32) : Bytes :=
  snprintfText size (cstr "ffmpeg -i %s -vf scale=%d:%d %s")
    [input, decimalInt width, decimalInt height, output]

def buildConvertCommand : Bytes := snprintfText size (cstr "ffmpeg -i %s %s") [input, output]

def buildExtractAudioCommand : Bytes :=
  snprintfText size (cstr "ffmpeg -i %s -vn -acodec copy %s") [input, output]

def buildExtractVideoCommand : Bytes :=
  snprintfText size (cstr "ffmpeg -i %s -an -vcodec copy %s") [input, output]

def buildAdjustBrightnessCommand (value : F.Value) : Bytes :=
  snprintfText size (cstr "ffmpeg -i %s -vf eq=brightness=%.2f %s") [input, F.fixed 2 value, output]

def buildAdjustContrastCommand (value : F.Value) : Bytes :=
  snprintfText size (cstr "ffmpeg -i %s -vf eq=contrast=%.2f %s") [input, F.fixed 2 value, output]

def buildAdjustSaturationCommand (value : F.Value) : Bytes :=
  snprintfText size (cstr "ffmpeg -i %s -vf eq=saturation=%.2f %s") [input, F.fixed 2 value, output]

/-- The `switch` of `build_rotate_command`. -/
def transpose (angle : Int32) : Bytes :=
  if angle = 90 then cstr "transpose=1"
  else if angle = 180 then cstr "transpose=1,transpose=1"
  else if angle = 270 then cstr "transpose=2"
  else []

def buildRotateCommand (angle : Int32) : Bytes :=
  snprintfText size (cstr "ffmpeg -i %s -vf \"%s\" %s") [input, transpose angle, output]

def buildCropCommand (x y width height : Int32) : Bytes :=
  snprintfText size (cstr "ffmpeg -i %s -filter:v \"crop=%d:%d:%d:%d\" %s")
    [input, decimalInt width, decimalInt height, decimalInt x, decimalInt y, output]

def buildAddWatermarkCommand (watermark : Bytes) (x y : Int32) : Bytes :=
  snprintfText size (cstr "ffmpeg -i %s -i %s -filter_complex \"overlay=%d:%d\" %s")
    [input, watermark, decimalInt x, decimalInt y, output]

def buildAddSubtitlesCommand (subtitles : Bytes) : Bytes :=
  snprintfText size (cstr "ffmpeg -i %s -vf subtitles=%s %s") [input, subtitles, output]

def buildChangeSpeedCommand (speed : F.Value) : Bytes :=
  snprintfText size (cstr "ffmpeg -i %s -filter:v \"setpts=%.2f*PTS\" %s")
    [input, F.fixed 2 (F.recip speed), output]

def buildReverseCommand : Bytes :=
  snprintfText size (cstr "ffmpeg -i %s -vf reverse -af areverse %s") [input, output]

def buildExtractFrameCommand (timestamp : Bytes) : Bytes :=
  snprintfText size (cstr "ffmpeg -i %s -ss %s -vframes 1 %s") [input, timestamp, output]

def buildCreateGifCommand (start stop : Bytes) (width fps : Int32) : Bytes :=
  snprintfText size
    (cstr "ffmpeg -i %s -ss %s -to %s -vf \"fps=%d,scale=%d:-1:flags=lanczos,split[s0][s1];[s0]palettegen[p];[s1][p]paletteuse\" -loop 0 %s")
    [input, start, stop, decimalInt fps, decimalInt width, output]

def buildDenoiseCommand (strength : F.Value) : Bytes :=
  snprintfText size (cstr "ffmpeg -i %s -vf hqdn3d=%.1f:%.1f:%.1f:%.1f %s")
    [input, F.fixed 1 strength, F.fixed 1 strength, F.fixed 1 (F.half strength),
      F.fixed 1 (F.half strength), output]

def buildStabilizeCommand : Bytes :=
  snprintfText size
    (cstr "ffmpeg -i %s -vf vidstabdetect=shakiness=10:accuracy=15:result=transform_vectors.trf -f null - && ffmpeg -i %s -vf vidstabtransform=input=transform_vectors.trf:zoom=0:smoothing=10 %s")
    [input, input, output]

def buildMergeCommand (secondFile : Bytes) : Bytes :=
  snprintfText size (cstr "ffmpeg -i %s -i %s -filter_complex \"concat=n=2:v=1:a=1\" %s")
    [input, secondFile, output]

def buildAddAudioCommand (audioFile : Bytes) : Bytes :=
  snprintfText size (cstr "ffmpeg -i %s -i %s -c:v copy -map 0:v:0 -map 1:a:0 -shortest %s")
    [input, audioFile, output]

end Commands

/-! ### The menu -/

/-- The string that `scanf("%ns")` leaves: no blanks, and at most `n` bytes. -/
structure ScanText (n : ℕ) where
  bytes : Bytes
  length_le : bytes.length ≤ n
  notMem : 0 ∉ bytes
  graphic : ∀ c ∈ bytes, CText.isspace c = false

/-- A valid choice, with what the user is asked for in it. -/
inductive MenuChoice (F : FloatType) where
  | trim (startTime endTime : ScanText 15)
  | resize (width height : Int32)
  | convert
  | extractAudio
  | extractVideo
  | adjustBrightness (value : F.Value)
  | adjustContrast (value : F.Value)
  | adjustSaturation (value : F.Value)
  | rotate (angle : Int32)
  | crop (x y width height : Int32)
  | addWatermark (watermark : ScanText 255) (x y : Int32)
  | addSubtitles (subtitles : ScanText 255)
  | changeSpeed (speed : F.Value)
  | reverse
  | extractFrame (timestamp : ScanText 15)
  | createGif (start stop : ScanText 15) (width fps : Int32)
  | denoise (strength : F.Value)
  | stabilize
  | merge (secondFile : ScanText 255)
  | addAudio (audioFile : ScanText 255)

namespace MenuChoice

variable {F : FloatType}

/-- The `switch` of `process_menu_choice`. -/
def command (size : ℕ) (input output : Bytes) : MenuChoice F → Bytes
  | .trim startTime endTime     => buildTrimCommand size input output startTime.bytes endTime.bytes
  | .resize width height        => buildResizeCommand size input output width height
  | .convert                    => buildConvertCommand size input output
  | .extractAudio               => buildExtractAudioCommand size input output
  | .extractVideo               => buildExtractVideoCommand size input output
  | .adjustBrightness value     => buildAdjustBrightnessCommand F size input output value
  | .adjustContrast value       => buildAdjustContrastCommand F size input output value
  | .adjustSaturation value     => buildAdjustSaturationCommand F size input output value
  | .rotate angle               => buildRotateCommand size input output angle
  | .crop x y width height      => buildCropCommand size input output x y width height
  | .addWatermark watermark x y => buildAddWatermarkCommand size input output watermark.bytes x y
  | .addSubtitles subtitles     => buildAddSubtitlesCommand size input output subtitles.bytes
  | .changeSpeed speed          => buildChangeSpeedCommand F size input output speed
  | .reverse                    => buildReverseCommand size input output
  | .extractFrame timestamp     => buildExtractFrameCommand size input output timestamp.bytes
  | .createGif start stop width fps =>
    buildCreateGifCommand size input output start.bytes stop.bytes width fps
  | .denoise strength           => buildDenoiseCommand F size input output strength
  | .stabilize                  => buildStabilizeCommand size input output
  | .merge secondFile           => buildMergeCommand size input output secondFile.bytes
  | .addAudio audioFile         => buildAddAudioCommand size input output audioFile.bytes

end MenuChoice

/-! ### Commands fit into their buffer -/

section Fits

lemma ScanText.fitsIn {n : ℕ} (text : ScanText n) : FitsIn text.bytes n :=
  ⟨text.length_le, text.notMem⟩

lemma mem_decimalInt {n : Int32} {c : UInt8} (h : c ∈ decimalInt n) : c = 45 ∨ 48 ≤ c ∧ c ≤ 57 := by
  unfold decimalInt at h
  split_ifs at h
  · exact (List.mem_cons.mp h).imp id isdigit_of_mem_decimal
  · exact .inr (isdigit_of_mem_decimal h)

lemma fitsIn_decimalInt (n : Int32) : FitsIn (decimalInt n) 11 := by
  have hlow : -2147483648 ≤ n.toInt := n.le_toInt
  have hhigh : n.toInt < 2147483648 := n.toInt_lt
  constructor
  · unfold decimalInt
    split_ifs
    · have hle := length_decimal_le (n := n.toInt.natAbs) (k := 10) (by decide) (by omega)
      rw [List.length_cons]
      omega
    · exact length_decimal_le (by decide) (by omega)
  · intro hzero
    rcases mem_decimalInt hzero with hzero | hzero
    · exact absurd hzero (by decide)
    · exact absurd hzero.1 (by decide)

lemma fitsIn_transpose (angle : Int32) : FitsIn (transpose angle) 23 := by
  unfold transpose
  split_ifs <;> exact ⟨by decide, by decide⟩

/-- What is documented of `%.1f` and `%.2f`: they print digits with a point and a sign, or `inf` or
`nan` with a sign, and 39 digits in front of the point at most. -/
structure FloatType.Documented (F : FloatType) : Prop where
  mem_fixed : ∀ n x, ∀ c ∈ F.fixed n x, c = 45 ∨ c = 46 ∨ 48 ≤ c ∧ c ≤ 57 ∨ 97 ≤ c ∧ c ≤ 122
  fixed_ne_nil : ∀ n x, F.fixed n x ≠ []
  length_fixed_le : ∀ n x, (F.fixed n x).length ≤ 41 + n

lemma FloatType.Documented.fitsIn {F : FloatType} (hF : F.Documented) (n : ℕ) (x : F.Value) :
    FitsIn (F.fixed n x) (41 + n) := by
  refine ⟨hF.length_fixed_le n x, ?_⟩
  intro hzero
  rcases hF.mem_fixed n x 0 hzero with h | h | h | h
  · exact absurd h (by decide)
  · exact absurd h (by decide)
  · exact absurd h.1 (by decide)
  · exact absurd h.1 (by decide)

/-- The bytes of a literal, as far as they can be computed from its characters. -/
def ofChars (chars : List Char) : Bytes := chars.map fun c => UInt8.ofNat c.toNat

lemma cstr_ofList (chars : List Char) : cstr (String.ofList chars) = ofChars chars := by
  simp [cstr, ofChars]

/-- With a buffer of `MAX_CMD_LEN` bytes the command is a string, and the same as with any larger
buffer. -/
structure FitsBuffer (command : ℕ → Bytes) : Prop where
  notMem : 0 ∉ command MAX_CMD_LEN
  length_lt : (command MAX_CMD_LEN).length < MAX_CMD_LEN
  whole : ∀ size, MAX_CMD_LEN ≤ size → command size = command MAX_CMD_LEN

lemma fitsBuffer_print {chars : List Char} {args : List Bytes} {bounds : List ℕ}
    (hargs : List.Forall₂ FitsIn args bounds) (hformat : 0 ∉ ofChars chars)
    (hmax : maxLength (ofChars chars) bounds < MAX_CMD_LEN) :
    FitsBuffer fun size => snprintfText size (cstr (String.ofList chars)) args := by
  rw [cstr_ofList]
  have hwhole : ∀ size, MAX_CMD_LEN ≤ size →
      snprintfText size (ofChars chars) args = sprintf (ofChars chars) args :=
    fun size hsize => snprintfText_eq_sprintf hformat hargs (hmax.trans_le hsize)
  obtain ⟨hlength, hzero⟩ := fitsIn_sprintf hformat hargs
  refine ⟨?_, ?_, fun size hsize => (hwhole size hsize).trans (hwhole _ le_rfl).symm⟩
  · rwa [hwhole _ le_rfl]
  · rw [hwhole _ le_rfl]
    exact hlength.trans_lt hmax

set_option maxRecDepth 1000 in
/-- Whatever the user types in, the command fits into its buffer. -/
lemma command_fits {F : FloatType} (hF : F.Documented) (choice : MenuChoice F)
    (input output : ScanText 255) :
    FitsBuffer fun size => choice.command size input.bytes output.bytes := by
  have hin := input.fitsIn
  have hout : List.Forall₂ FitsIn [output.bytes] [255] := .cons output.fitsIn .nil
  have hint := fitsIn_decimalInt
  have hfixed := hF.fitsIn
  cases choice with
  | trim startTime endTime =>
    exact fitsBuffer_print (.cons hin (.cons startTime.fitsIn (.cons endTime.fitsIn hout)))
      (by decide +kernel) (by decide +kernel)
  | resize width height =>
    exact fitsBuffer_print (.cons hin (.cons (hint width) (.cons (hint height) hout)))
      (by decide +kernel) (by decide +kernel)
  | convert | extractAudio | extractVideo | reverse =>
    exact fitsBuffer_print (.cons hin hout) (by decide +kernel) (by decide +kernel)
  | adjustBrightness value | adjustContrast value | adjustSaturation value =>
    exact fitsBuffer_print (.cons hin (.cons (hfixed 2 value) hout)) (by decide +kernel)
      (by decide +kernel)
  | rotate angle =>
    exact fitsBuffer_print (.cons hin (.cons (fitsIn_transpose angle) hout)) (by decide +kernel)
      (by decide +kernel)
  | crop x y width height =>
    exact fitsBuffer_print (.cons hin (.cons (hint width) (.cons (hint height) (.cons (hint x)
      (.cons (hint y) hout))))) (by decide +kernel) (by decide +kernel)
  | addWatermark watermark x y =>
    exact fitsBuffer_print (.cons hin (.cons watermark.fitsIn (.cons (hint x)
      (.cons (hint y) hout)))) (by decide +kernel) (by decide +kernel)
  | addSubtitles file | merge file | addAudio file =>
    exact fitsBuffer_print (.cons hin (.cons file.fitsIn hout)) (by decide +kernel)
      (by decide +kernel)
  | changeSpeed speed =>
    exact fitsBuffer_print (.cons hin (.cons (hfixed 2 (F.recip speed)) hout))
      (by decide +kernel) (by decide +kernel)
  | extractFrame timestamp =>
    exact fitsBuffer_print (.cons hin (.cons timestamp.fitsIn hout)) (by decide +kernel)
      (by decide +kernel)
  | createGif start stop width fps =>
    exact fitsBuffer_print (.cons hin (.cons start.fitsIn (.cons stop.fitsIn (.cons (hint fps)
      (.cons (hint width) hout))))) (by decide +kernel) (by decide +kernel)
  | denoise strength =>
    exact fitsBuffer_print (.cons hin (.cons (hfixed 1 strength) (.cons (hfixed 1 strength)
      (.cons (hfixed 1 (F.half strength)) (.cons (hfixed 1 (F.half strength)) hout)))))
      (by decide +kernel) (by decide +kernel)
  | stabilize =>
    exact fitsBuffer_print (.cons hin (.cons hin hout)) (by decide +kernel) (by decide +kernel)

end Fits

/-! ### Rational numbers -/

/-- `x` with `n` digits behind the point. -/
def fixedPoint (n : ℕ) (x : ℚ) : Bytes :=
  let k := (2 * x.num.natAbs * 10 ^ n + x.den) / (2 * x.den)
  (if x.num < 0 then [45] else []) ++ decimal (k / 10 ^ n)
    ++ 46 :: (decimal (10 ^ n + k % 10 ^ n)).tail

/-- Rational numbers in place of floating-point ones. -/
def rationals : FloatType where
  Value := ℚ
  recip x := 1 / x
  half x := x / 2
  fixed n x := if (fixedPoint n x).length ≤ 41 + n then fixedPoint n x else cstr "inf"

lemma mem_fixedPoint {n : ℕ} {x : ℚ} {c : UInt8} (hc : c ∈ fixedPoint n x) :
    c = 45 ∨ c = 46 ∨ 48 ≤ c ∧ c ≤ 57 := by
  unfold fixedPoint at hc
  rcases List.mem_append.mp hc with hc | hc
  · rcases List.mem_append.mp hc with hc | hc
    · split_ifs at hc with hsign
      · exact .inl (List.mem_singleton.mp hc)
      · cases hc
    · exact .inr (.inr (isdigit_of_mem_decimal hc))
  · rcases List.mem_cons.mp hc with rfl | hc
    · exact .inr (.inl rfl)
    · exact .inr (.inr (isdigit_of_mem_decimal (List.mem_of_mem_tail hc)))

lemma rationals_documented : rationals.Documented where
  mem_fixed := by
    intro n x c hc
    simp only [rationals] at hc
    split_ifs at hc with hlength
    · exact (mem_fixedPoint hc).imp id (.imp id .inl)
    · have hinf : c = 105 ∨ c = 110 ∨ c = 102 := by simpa [cstr] using hc
      rcases hinf with rfl | rfl | rfl <;> decide
  fixed_ne_nil := by
    intro n x
    simp only [rationals]
    split_ifs
    · simp [fixedPoint]
    · decide
  length_fixed_le := by
    intro n x
    simp only [rationals]
    split_ifs with hlength
    · exact hlength
    · exact le_add_right (by decide)

/-- The choice of the brightness 0.5 with the files `in` and `out`. -/
def brighter : MenuChoice rationals := .adjustBrightness (1 / 2 : ℚ)

def inName : ScanText 255 where
  bytes := cstr "in"
  length_le := by decide
  notMem := by decide
  graphic := by simp [cstr, CText.isspace]

def outName : ScanText 255 where
  bytes := cstr "out"
  length_le := by decide
  notMem := by decide
  graphic := by simp [cstr, CText.isspace]

end Pcd
