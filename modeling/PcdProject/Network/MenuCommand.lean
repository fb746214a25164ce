import PcdProject.Client.FfmpegCommands
import PcdProject.Core.ShellWords
import PcdProject.Network.RequestAgreement
import PcdProject.Server.Isolation
import PcdProject.Server.JobOrigin

/-!
# From the menu to the shell

The server passes the command of the menu to a shell in the directory of the job. The shell splits
it into the arguments that were meant, and the names of the files among them lead to what the client
uploads and downloads, if the user types in plain words.
-/

namespace Pcd

open CFormat ShellWords FilePath Transition

/-! ### The arguments of a command -/

/-- The characters of a POSIX shell. The special ones expand to something between quotes as well. -/
def shellKind (c : UInt8) : CharClass :=
  if 48 ≤ c ∧ c ≤ 57 ∨ 65 ≤ c ∧ c ≤ 90 ∨ 97 ≤ c ∧ c ≤ 122 ∨ c ∈ cstr "._-/:,+=@%" then .plain
  else if c ∈ cstr " \t" then .blank
  else if c ∈ cstr "\"" then .quote
  else if c ∈ cstr "&" then .amp
  else if c ∈ cstr ";[]*()|<>?#~^{}'" then .quotedOnly
  else .special

/-- A text that the shell takes for a word as it is. -/
def PlainWord (text : Bytes) : Prop := text ≠ [] ∧ text.all fun c => shellKind c = .plain

instance (text : Bytes) : Decidable (PlainWord text) := inferInstanceAs (Decidable (_ ∧ _))

namespace MenuChoice

variable {F : FloatType}

/-- The texts that the user types in for the choice. -/
def texts : MenuChoice F → List Bytes
  | .trim startTime endTime   => [startTime.bytes, endTime.bytes]
  | .addWatermark file _ _    => [file.bytes]
  | .addSubtitles file        => [file.bytes]
  | .extractFrame timestamp   => [timestamp.bytes]
  | .createGif start stop _ _ => [start.bytes, stop.bytes]
  | .merge file               => [file.bytes]
  | .addAudio file            => [file.bytes]
  | _ => []

/-- What `ffmpeg` is meant to be called with; the stabilizer calls it twice. -/
def argv (input output : Bytes) : MenuChoice F → List (List Bytes)
  | .trim startTime endTime =>
    [[cstr "ffmpeg", cstr "-i", input, cstr "-ss", startTime.bytes, cstr "-to", endTime.bytes,
      cstr "-c", cstr "copy", output]]
  | .resize width height =>
    [[cstr "ffmpeg", cstr "-i", input, cstr "-vf", cstr "scale=" ++ decimalInt width ++ cstr ":"
      ++ decimalInt height, output]]
  | .convert => [[cstr "ffmpeg", cstr "-i", input, output]]
  | .extractAudio =>
    [[cstr "ffmpeg", cstr "-i", input, cstr "-vn", cstr "-acodec", cstr "copy", output]]
  | .extractVideo =>
    [[cstr "ffmpeg", cstr "-i", input, cstr "-an", cstr "-vcodec", cstr "copy", output]]
  | .adjustBrightness value =>
    [[cstr "ffmpeg", cstr "-i", input, cstr "-vf", cstr "eq=brightness=" ++ F.fixed 2 value,
      output]]
  | .adjustContrast value =>
    [[cstr "ffmpeg", cstr "-i", input, cstr "-vf", cstr "eq=contrast=" ++ F.fixed 2 value, output]]
  | .adjustSaturation value =>
    [[cstr "ffmpeg", cstr "-i", input, cstr "-vf", cstr "eq=saturation=" ++ F.fixed 2 value,
      output]]
  | .rotate angle => [[cstr "ffmpeg", cstr "-i", input, cstr "-vf", transpose angle, output]]
  | .crop x y width height =>
    [[cstr "ffmpeg", cstr "-i", input, cstr "-filter:v", cstr "crop=" ++ decimalInt width
      ++ cstr ":" ++ decimalInt height ++ cstr ":" ++ decimalInt x ++ cstr ":" ++ decimalInt y,
      output]]
  | .addWatermark watermark x y =>
    [[cstr "ffmpeg", cstr "-i", input, cstr "-i", watermark.bytes, cstr "-filter_complex",
      cstr "overlay=" ++ decimalInt x ++ cstr ":" ++ decimalInt y, output]]
  | .addSubtitles subtitles =>
    [[cstr "ffmpeg", cstr "-i", input, cstr "-vf", cstr "subtitles=" ++ subtitles.bytes, output]]
  | .changeSpeed speed =>
    [[cstr "ffmpeg", cstr "-i", input, cstr "-filter:v",
      cstr "setpts=" ++ F.fixed 2 (F.recip speed) ++ cstr "*PTS", output]]
  | .reverse =>
    [[cstr "ffmpeg", cstr "-i", input, cstr "-vf", cstr "reverse", cstr "-af", cstr "areverse",
      output]]
  | .extractFrame timestamp =>
    [[cstr "ffmpeg", cstr "-i", input, cstr "-ss", timestamp.bytes, cstr "-vframes", cstr "1",
      output]]
  | .createGif start stop width fps =>
    [[cstr "ffmpeg", cstr "-i", input, cstr "-ss", start.bytes, cstr "-to", stop.bytes, cstr "-vf",
      cstr "fps=" ++ decimalInt fps ++ cstr ",scale=" ++ decimalInt width
        ++ cstr ":-1:flags=lanczos,split[s0][s1];[s0]palettegen[p];[s1][p]paletteuse",
      cstr "-loop", cstr "0", output]]
  | .denoise strength =>
    [[cstr "ffmpeg", cstr "-i", input, cstr "-vf", cstr "hqdn3d=" ++ F.fixed 1 strength ++ cstr ":"
      ++ F.fixed 1 strength ++ cstr ":" ++ F.fixed 1 (F.half strength) ++ cstr ":"
      ++ F.fixed 1 (F.half strength), output]]
  | .stabilize =>
    [[cstr "ffmpeg", cstr "-i", input, cstr "-vf",
        cstr "vidstabdetect=shakiness=10:accuracy=15:result=transform_vectors.trf", cstr "-f",
        cstr "null", cstr "-"],
      [cstr "ffmpeg", cstr "-i", input, cstr "-vf",
        cstr "vidstabtransform=input=transform_vectors.trf:zoom=0:smoothing=10", output]]
  | .merge secondFile =>
    [[cstr "ffmpeg", cstr "-i", input, cstr "-i", secondFile.bytes, cstr "-filter_complex",
      cstr "concat=n=2:v=1:a=1", output]]
  | .addAudio audioFile =>
    [[cstr "ffmpeg", cstr "-i", input, cstr "-i", audioFile.bytes, cstr "-c:v", cstr "copy",
      cstr "-map", cstr "0:v:0", cstr "-map", cstr "1:a:0", cstr "-shortest", output]]

end MenuChoice

/-! ### The words of a command -/

section Words

variable {format : Bytes} {args : List Bytes} {template : List (Command Item)} {n : ℕ}

/-- A conversion is a plain character of a format. -/
def itemKind : Item → CharClass
  | .char c       => shellKind c
  | .conversion _ => .plain

/-- The part of a format that is printed as it is. -/
def lit (s : String) : List Item := (cstr s).map .char

/-- The argument with number `i`. -/
def arg (i : ℕ) : List Item := [.conversion i]

@[simp] lemma flatMap_lit (s : String) : (lit s).flatMap (Item.text args) = cstr s := by
  rw [lit, List.flatMap_map]
  exact List.flatMap_singleton' (cstr s)

@[simp] lemma flatMap_arg (i : ℕ) : (arg i).flatMap (Item.text args) = args.getD i [] := by
  simp [arg, Item.text]

lemma plainWord_decimalInt (n : Int32) : PlainWord (decimalInt n) := by
  constructor
  · unfold decimalInt
    split_ifs
    · simp
    · exact decimal_ne_nil _
  · refine List.all_eq_true.mpr fun c hc => ?_
    rcases mem_decimalInt hc with rfl | hdigit
    · rfl
    · simp [shellKind, hdigit]

lemma FloatType.Documented.plainWord {F : FloatType} (hF : F.Documented) (n : ℕ) (x : F.Value) :
    PlainWord (F.fixed n x) := by
  refine ⟨hF.fixed_ne_nil n x, List.all_eq_true.mpr fun c hc => ?_⟩
  rcases hF.mem_fixed n x c hc with rfl | rfl | hdigit | hletter
  · rfl
  · rfl
  · simp [shellKind, hdigit]
  · simp [shellKind, hletter]

/-- The words of a format with plain words for its arguments are those of the format. -/
lemma words_sprintf (hargs : ∀ arg ∈ args, PlainWord arg)
    (hbelow : ∀ item ∈ parse 0 format, item.Below args.length)
    (htemplate : words itemKind (parse 0 format) = some template) :
    words shellKind (sprintf format args)
      = some (template.map (·.map (·.flatMap (Item.text args)))) := by
  have hfill : ∀ item ∈ parse 0 format,
      Fills shellKind itemKind (Item.text args) item := by
    intro item hitem
    cases item with
    | char c =>
      unfold Fills
      split_ifs with hplain
      · exact ⟨List.cons_ne_nil c [], List.forall_mem_singleton.mpr hplain⟩
      · exact ⟨c, rfl, rfl⟩
    | conversion i =>
      -- the argument fills a hole
      have hi : i < args.length := hbelow _ hitem
      obtain ⟨hne, hplain⟩ := hargs _ (List.getElem_mem hi)
      have htext : Item.text args (.conversion i) = args[i] := by simp [Item.text, hi]
      rw [Fills, htext]
      exact ⟨hne, fun c hc => of_decide_eq_true (List.all_eq_true.mp hplain c hc)⟩
  rw [sprintf, words_flatMap hfill, htemplate, Option.map_some]

variable {chars : List Char} {argv : List (List Bytes)}

/-- The words of a command that fits into its buffer. -/
lemma words_command
    (hfits : FitsBuffer fun size => snprintfText size (cstr (String.ofList chars)) args)
    (hargs : ∀ arg ∈ args, PlainWord arg) (n : ℕ) (hn : args.length = n)
    (hbelow : ∀ item ∈ parse 0 (ofChars chars), item.Below n) (template : List (Command Item))
    (htemplate : words itemKind (parse 0 (ofChars chars)) = some template)
    (hargv : template.map (·.map (·.flatMap (Item.text args))) = argv) :
    words shellKind (snprintfText MAX_CMD_LEN (cstr (String.ofList chars)) args) = some argv := by
  -- a buffer that is larger than the text holds the same
  have hwhole : snprintfText (MAX_CMD_LEN + (sprintf (ofChars chars) args).length)
      (cstr (String.ofList chars)) args
        = snprintfText MAX_CMD_LEN (cstr (String.ofList chars)) args :=
    hfits.whole _ (Nat.le_add_right _ _)
  rw [← hwhole, cstr_ofList, snprintfText, List.take_of_length_le (by unfold MAX_CMD_LEN; omega),
    words_sprintf hargs (hn ▸ hbelow) htemplate, hargv]

/-- The words of a command that another format prints as well. -/
lemma words_command_of_eq {args' : List Bytes}
    (hfits : FitsBuffer fun size => snprintfText size format args')
    (hsame : sprintf format args' = sprintf (cstr (String.ofList chars)) args)
    (hargs : ∀ arg ∈ args, PlainWord arg) (n : ℕ) (hn : args.length = n)
    (hbelow : ∀ item ∈ parse 0 (ofChars chars), item.Below n) (template : List (Command Item))
    (htemplate : words itemKind (parse 0 (ofChars chars)) = some template)
    (hargv : template.map (·.map (·.flatMap (Item.text args))) = argv) :
    words shellKind (snprintfText MAX_CMD_LEN format args') = some argv := by
  have hcommand : ∀ size, snprintfText size format args'
      = snprintfText size (cstr (String.ofList chars)) args :=
    fun size => congrArg (List.take (size - 1)) hsame
  simp only [hcommand] at hfits ⊢
  exact words_command hfits hargs n hn hbelow template htemplate hargv

/-- The text between the quotes is part of a format as well. An angle that the menu does not know
leaves the quotes empty. -/
lemma words_rotate {input output : Bytes} {angle : Int32}
    (hfits : FitsBuffer fun size => buildRotateCommand size input output angle)
    (hinput : PlainWord input) (houtput : PlainWord output) :
    words shellKind (buildRotateCommand MAX_CMD_LEN input output angle)
      = some [[cstr "ffmpeg", cstr "-i", input, cstr "-vf", transpose angle, output]] := by
  have hargs : ∀ text ∈ [input, output], PlainWord text := by simp [hinput, houtput]
  unfold buildRotateCommand at hfits ⊢
  unfold transpose at hfits ⊢
  split_ifs at hfits ⊢
  · exact words_command_of_eq hfits
      (show _ = sprintf (cstr "ffmpeg -i %s -vf \"transpose=1\" %s") _ by
        rw [cstr_ofList, cstr_ofList]; rfl) hargs 2 rfl (by decide +kernel)
      [[lit "ffmpeg", lit "-i", arg 0, lit "-vf", lit "transpose=1", arg 1]]
      (by decide +kernel) (by simp)
  · exact words_command_of_eq hfits
      (show _ = sprintf (cstr "ffmpeg -i %s -vf \"transpose=1,transpose=1\" %s") _ by
        rw [cstr_ofList, cstr_ofList]; rfl) hargs 2 rfl (by decide +kernel)
      [[lit "ffmpeg", lit "-i", arg 0, lit "-vf", lit "transpose=1,transpose=1", arg 1]]
      (by decide +kernel) (by simp)
  · exact words_command_of_eq hfits
      (show _ = sprintf (cstr "ffmpeg -i %s -vf \"transpose=2\" %s") _ by
        rw [cstr_ofList, cstr_ofList]; rfl) hargs 2 rfl (by decide +kernel)
      [[lit "ffmpeg", lit "-i", arg 0, lit "-vf", lit "transpose=2", arg 1]]
      (by decide +kernel) (by simp)
  · exact words_command_of_eq hfits
      (show _ = sprintf (cstr "ffmpeg -i %s -vf \"\" %s") _ by
        rw [cstr_ofList, cstr_ofList]; rfl) hargs 2 rfl (by decide +kernel)
      [[lit "ffmpeg", lit "-i", arg 0, lit "-vf", [], arg 1]] (by decide +kernel) (by simp)

end Words

set_option maxRecDepth 1000 in
/-- If the user types in plain words, the shell splits the command into the arguments that are
meant. -/
lemma words_menu {F : FloatType} (hF : F.Documented) (choice : MenuChoice F)
    (input output : ScanText 255) (hinput : PlainWord input.bytes)
    (houtput : PlainWord output.bytes) (htexts : ∀ text ∈ choice.texts, PlainWord text) :
    words shellKind (choice.command MAX_CMD_LEN input.bytes output.bytes)
      = some (choice.argv input.bytes output.bytes) := by
  have hint := plainWord_decimalInt
  have hfixed := hF.plainWord
  have hfits := command_fits hF choice input output
  cases choice with
  | trim startTime endTime =>
    exact words_command hfits (by simp_all [MenuChoice.texts]) 4 rfl (by decide +kernel)
      [[lit "ffmpeg", lit "-i", arg 0, lit "-ss", arg 1, lit "-to", arg 2, lit "-c", lit "copy",
        arg 3]]
      (by decide +kernel) (by simp [MenuChoice.argv])
  | resize width height =>
    exact words_command hfits (by simp_all [MenuChoice.texts]) 4 rfl (by decide +kernel)
      [[lit "ffmpeg", lit "-i", arg 0, lit "-vf", lit "scale=" ++ arg 1 ++ lit ":" ++ arg 2, arg 3]]
      (by decide +kernel) (by simp [MenuChoice.argv])
  | convert =>
    exact words_command hfits (by simp_all [MenuChoice.texts]) 2 rfl (by decide +kernel)
      [[lit "ffmpeg", lit "-i", arg 0, arg 1]]
      (by decide +kernel) (by simp [MenuChoice.argv])
  | extractAudio =>
    exact words_command hfits (by simp_all [MenuChoice.texts]) 2 rfl (by decide +kernel)
      [[lit "ffmpeg", lit "-i", arg 0, lit "-vn", lit "-acodec", lit "copy", arg 1]]
      (by decide +kernel) (by simp [MenuChoice.argv])
  | extractVideo =>
    exact words_command hfits (by simp_all [MenuChoice.texts]) 2 rfl (by decide +kernel)
      [[lit "ffmpeg", lit "-i", arg 0, lit "-an", lit "-vcodec", lit "copy", arg 1]]
      (by decide +kernel) (by simp [MenuChoice.argv])
  | adjustBrightness value =>
    exact words_command hfits (by simp_all [MenuChoice.texts]) 3 rfl (by decide +kernel)
      [[lit "ffmpeg", lit "-i", arg 0, lit "-vf", lit "eq=brightness=" ++ arg 1, arg 2]]
      (by decide +kernel) (by simp [MenuChoice.argv])
  | adjustContrast value =>
    exact words_command hfits (by simp_all [MenuChoice.texts]) 3 rfl (by decide +kernel)
      [[lit "ffmpeg", lit "-i", arg 0, lit "-vf", lit "eq=contrast=" ++ arg 1, arg 2]]
      (by decide +kernel) (by simp [MenuChoice.argv])
  | adjustSaturation value =>
    exact words_command hfits (by simp_all [MenuChoice.texts]) 3 rfl (by decide +kernel)
      [[lit "ffmpeg", lit "-i", arg 0, lit "-vf", lit "eq=saturation=" ++ arg 1, arg 2]]
      (by decide +kernel) (by simp [MenuChoice.argv])
  | rotate angle => exact words_rotate hfits hinput houtput
  | crop x y width height =>
    exact words_command hfits (by simp_all [MenuChoice.texts]) 6 rfl (by decide +kernel)
      [[lit "ffmpeg", lit "-i", arg 0, lit "-filter:v", lit "crop=" ++ arg 1 ++ lit ":" ++ arg 2
        ++ lit ":" ++ arg 3 ++ lit ":" ++ arg 4, arg 5]]
      (by decide +kernel) (by simp [MenuChoice.argv])
  | addWatermark watermark x y =>
    exact words_command hfits (by simp_all [MenuChoice.texts]) 5 rfl (by decide +kernel)
      [[lit "ffmpeg", lit "-i", arg 0, lit "-i", arg 1, lit "-filter_complex", lit "overlay="
        ++ arg 2 ++ lit ":" ++ arg 3, arg 4]]
      (by decide +kernel) (by simp [MenuChoice.argv])
  | addSubtitles subtitles =>
    exact words_command hfits (by simp_all [MenuChoice.texts]) 3 rfl (by decide +kernel)
      [[lit "ffmpeg", lit "-i", arg 0, lit "-vf", lit "subtitles=" ++ arg 1, arg 2]]
      (by decide +kernel) (by simp [MenuChoice.argv])
  | changeSpeed speed =>
    exact words_command hfits (by simp_all [MenuChoice.texts]) 3 rfl (by decide +kernel)
      [[lit "ffmpeg", lit "-i", arg 0, lit "-filter:v", lit "setpts=" ++ arg 1 ++ lit "*PTS",
        arg 2]]
      (by decide +kernel) (by simp [MenuChoice.argv])
  | reverse =>
    exact words_command hfits (by simp_all [MenuChoice.texts]) 2 rfl (by decide +kernel)
      [[lit "ffmpeg", lit "-i", arg 0, lit "-vf", lit "reverse", lit "-af", lit "areverse", arg 1]]
      (by decide +kernel) (by simp [MenuChoice.argv])
  | extractFrame timestamp =>
    exact words_command hfits (by simp_all [MenuChoice.texts]) 3 rfl (by decide +kernel)
      [[lit "ffmpeg", lit "-i", arg 0, lit "-ss", arg 1, lit "-vframes", lit "1", arg 2]]
      (by decide +kernel) (by simp [MenuChoice.argv])
  | createGif start stop width fps =>
    exact words_command hfits (by simp_all [MenuChoice.texts]) 6 rfl (by decide +kernel)
      [[lit "ffmpeg", lit "-i", arg 0, lit "-ss", arg 1, lit "-to", arg 2, lit "-vf", lit "fps="
        ++ arg 3 ++ lit ",scale=" ++ arg 4
        ++ lit ":-1:flags=lanczos,split[s0][s1];[s0]palettegen[p];[s1][p]paletteuse", lit "-loop",
        lit "0", arg 5]]
      (by decide +kernel) (by simp [MenuChoice.argv])
  | denoise strength =>
    exact words_command hfits (by simp_all [MenuChoice.texts]) 6 rfl (by decide +kernel)
      [[lit "ffmpeg", lit "-i", arg 0, lit "-vf", lit "hqdn3d=" ++ arg 1 ++ lit ":" ++ arg 2
        ++ lit ":" ++ arg 3 ++ lit ":" ++ arg 4, arg 5]]
      (by decide +kernel) (by simp [MenuChoice.argv])
  | stabilize =>
    exact words_command hfits (by simp_all [MenuChoice.texts]) 3 rfl (by decide +kernel)
      [[lit "ffmpeg", lit "-i", arg 0, lit "-vf",
        lit "vidstabdetect=shakiness=10:accuracy=15:result=transform_vectors.trf", lit "-f",
        lit "null", lit "-"], [lit "ffmpeg", lit "-i", arg 1, lit "-vf",
        lit "vidstabtransform=input=transform_vectors.trf:zoom=0:smoothing=10", arg 2]]
      (by decide +kernel) (by simp [MenuChoice.argv])
  | merge secondFile =>
    exact words_command hfits (by simp_all [MenuChoice.texts]) 3 rfl (by decide +kernel)
      [[lit "ffmpeg", lit "-i", arg 0, lit "-i", arg 1, lit "-filter_complex",
        lit "concat=n=2:v=1:a=1", arg 2]]
      (by decide +kernel) (by simp [MenuChoice.argv])
  | addAudio audioFile =>
    exact words_command hfits (by simp_all [MenuChoice.texts]) 3 rfl (by decide +kernel)
      [[lit "ffmpeg", lit "-i", arg 0, lit "-i", arg 1, lit "-c:v", lit "copy", lit "-map",
        lit "0:v:0", lit "-map", lit "1:a:0", lit "-shortest", arg 2]]
      (by decide +kernel) (by simp [MenuChoice.argv])

/-! ### From the client to the job directory -/

/-- The string in an array of the client. -/
def CString.ofBytes (bytes : Bytes) : CString where
  bytes := bytes.takeWhile (· ≠ 0)
  notMem := by
    intro hzero
    simpa using List.mem_takeWhile_imp hzero

def ScanText.string {n : ℕ} (text : ScanText n) : CString := ⟨text.bytes, text.notMem⟩

/-- `process_menu_choice` up to the first `recvfrom` of `submit_job`. An invalid choice is `none`. -/
def JobClient.processMenuChoice {F : FloatType} (s : JobClient) (choice : Option (MenuChoice F))
    (input output : ScanText 255) (rand : UInt32) (malloc sent : Bool) (stack : Bytes) :
    JobClient :=
  match choice with
  | none        => s
  | some choice =>
    let command := choice.command MAX_CMD_LEN input.bytes output.bytes
    s.submitJob (some (.ofBytes command)) (some [some input.string]) rand malloc sent stack

/-- If the step receives a JOB_REQ with the key, it is the datagram `d`. -/
def Action.Genuine (d : Bytes) (key : JobKey) : Action → Prop
  | .client (.receive buffer n _ _ _) =>
    ∀ req cmd, readRequest buffer n = some (.job req cmd) → (req.clientId, req.jobId) = key →
      d <+: buffer ∧ n = d.length
  | _ => True

section Executed

variable {F : FloatType} {choice : MenuChoice F} {input output : ScanText 255} {s : JobClient}
  {jobId : UInt32} {malloc sent : Bool} {stack d : Bytes} {dir : Bytes} {as : List Action}
  {t : Server} {job : PendingJob}

lemma bytes_ofBytes_command (hF : F.Documented) :
    (CString.ofBytes (choice.command MAX_CMD_LEN input.bytes output.bytes)).bytes
      = choice.command MAX_CMD_LEN input.bytes output.bytes :=
  CBuffer.takeWhile_eq_self_iff.mpr (command_fits hF choice input output).notMem

/-- The request of `process_menu_choice`. -/
def JobClient.menuRequest (s : JobClient) (choice : MenuChoice F) (input output : ScanText 255)
    (jobId : UInt32) : JobRequest :=
  s.jobRequest (.ofBytes (choice.command MAX_CMD_LEN input.bytes output.bytes))
    [some input.string] jobId

/-- The request as the server reads it. -/
lemma readRequest_menu (hF : F.Documented) {command : Bytes}
    (hcommand : command = choice.command MAX_CMD_LEN input.bytes output.bytes) (leftOver : Bytes) :
    readRequest ((s.menuRequest choice input output jobId).datagram 0 command ++ leftOver)
        ((s.menuRequest choice input output jobId).datagram 0 command).length
      = some (.job (s.menuRequest choice input output jobId) command) := by
  have hfits := command_fits hF choice input output
  subst hcommand
  rw [JobRequest.datagram, List.length_append]
  refine readRequest_job leftOver (CLayout.isStruct_pack 0 (by decide) (JobRequest.fits _)) ?_
    hfits.notMem
  rw [JobClient.menuRequest, JobClient.jobRequest, bytes_ofBytes_command hF]
  exact toNat_ofNat_length hfits.length_lt.le

/-- `submit_job` sends nothing else, and sends it if it gets memory and `sendto` does not fail. -/
lemma sent_processMenuChoice (hF : F.Documented) :
    (s.processMenuChoice (some choice) input output jobId malloc sent stack).sent
      = s.sent ++ if malloc ∧ sent then
          [(s.menuRequest choice input output jobId).datagram 0
            (choice.command MAX_CMD_LEN input.bytes output.bytes)]
        else [] := by
  have hlength := (command_fits hF choice input output).length_lt
  simp only [JobClient.processMenuChoice, JobClient.submitJob, bytes_ofBytes_command hF,
    JobClient.menuRequest]
  cases malloc <;> cases sent <;> simp [hlength]

/-- A genuine JOB_REQ with the key asks for the command of the menu. -/
lemma orders_of_genuine (hF : F.Documented)
    (hd : (s.processMenuChoice (some choice) input output jobId malloc sent stack).sent
      = s.sent ++ [d]) {a : Action} (ha : a.Genuine d (s.clientId, jobId)) :
    a.Orders fun order => order.1 = (s.clientId, jobId) →
      order.2 = choice.command MAX_CMD_LEN input.bytes output.bytes := by
  have hdatagram : d = (s.menuRequest choice input output jobId).datagram 0
      (choice.command MAX_CMD_LEN input.bytes output.bytes) := by
    rw [sent_processMenuChoice hF, List.append_cancel_left_eq] at hd
    split_ifs at hd
    · exact (List.singleton_inj.mp hd).symm
  cases a with
  | client a =>
    cases a with
    | receive buffer n src now newId =>
      intro req cmd hread hkey
      obtain ⟨⟨leftOver, rfl⟩, rfl⟩ := ha req cmd hread hkey
      subst hdatagram
      cases hread.symm.trans (readRequest_menu hF rfl leftOver)
      exact (bounded_eq_iff (by decide)).mpr (command_fits hF choice input output).length_lt
    | _ => trivial
  | _ => trivial

/-- Whatever the user types in, the JOB_REQ of `process_menu_choice` carries the whole text of the
command, and the server holds it as it is. -/
theorem menu_submitted (hF : F.Documented) (choice : MenuChoice F) (input output : ScanText 255)
    (s : JobClient) (jobId : UInt32) (stack : Bytes) :
    ∃ (req : JobRequest) (command : Bytes),
      (s.processMenuChoice (some choice) input output jobId true true stack).sent
          = s.sent ++ [req.datagram 0 command] ∧
        (∀ size, MAX_CMD_LEN ≤ size → choice.command size input.bytes output.bytes = command) ∧
        ∀ leftOver src now,
          readRequest (req.datagram 0 command ++ leftOver) (req.datagram 0 command).length
              = some (.job req command) ∧
            (PendingJob.create req command src now).key = (s.clientId, jobId) ∧
            (PendingJob.create req command src now).command = command ∧
            (PendingJob.create req command src now).fileCount = 1 := by
  have hfits := command_fits hF choice input output
  refine ⟨s.menuRequest choice input output jobId, choice.command MAX_CMD_LEN input.bytes
    output.bytes, sent_processMenuChoice hF, hfits.whole, fun leftOver src now => ?_⟩
  have hheld := (bounded_eq_iff (by decide)).mpr hfits.length_lt
  exact ⟨readRequest_menu hF rfl leftOver, rfl, hheld, rfl⟩

theorem menu_submitted_brighter :
    ∃ (req : JobRequest) (command : Bytes),
      ((JobClient.init ⟨1, 5000⟩ (Vector.replicate 16 1)).processMenuChoice (some brighter) inName
          outName 7 true true []).sent = [] ++ [req.datagram 0 command] ∧
        brighter.command 2000 inName.bytes outName.bytes = command := by
  obtain ⟨req, command, hsent, hwhole, -⟩ := menu_submitted rationals_documented brighter inName
    outName (.init ⟨1, 5000⟩ (Vector.replicate 16 1)) 7 []
  exact ⟨req, command, hsent, hwhole 2000 (by decide)⟩

/-- A name that fits into the records of the queues leads to the same file from the directory of the
job, and from the start directory by way of the paths of the transfers. -/
lemma location_name {cwd name : Bytes} {clientId : ClientId}
    (hcwd : cwd = resolve dir (dirPath clientId jobId)) (hname : name.length ≤ 255) :
    (∀ (up : UploadRequest) (now : ℤ), (up.clientId, up.jobId) = (clientId, jobId) →
      location (resolve cwd name) = location (resolve dir (writtenPath up name now))) ∧
    (∀ (down : DownloadRequest) (src : SockAddr),
      (down.clientId, down.jobId) = (clientId, jobId) →
        location (resolve cwd name) = location (resolve dir (reportedPath down name)) ∧
          location (resolve cwd name) = location (resolve dir (sentPath down name src))) := by
  have hpath : location (resolve cwd name)
      = location (resolve dir (downloadPath clientId jobId name)) := by
    rw [location_downloadPath, List.take_of_length_le (by omega), location_resolve, hcwd,
      jobLocation]
  have hbounded : bounded MAX_FILENAME_LEN name = name := List.take_of_length_le hname
  constructor
  · intro up now hup
    obtain ⟨rfl, rfl⟩ := Prod.mk.inj hup
    have hwritten : writtenPath up name now
        = uploadPath up.clientId up.jobId (bounded MAX_FILENAME_LEN name) := rfl
    rw [hwritten, hbounded, uploadPath_eq_downloadPath, hpath]
  · intro down src hdown
    obtain ⟨rfl, rfl⟩ := Prod.mk.inj hdown
    have hsent : sentPath down name src
        = downloadPath down.clientId down.jobId (bounded MAX_FILENAME_LEN name) := rfl
    rw [hsent, hbounded, reportedPath, hpath]
    exact ⟨rfl, rfl⟩

/-- The command of the menu, from the client to the call of `system`. If the only JOB_REQ with the
key that reaches the server is the one of the client, and relative paths are used in the start
directory only, then the command that is executed for the key splits into the arguments that were
meant. The relative names of the input and the output lead to the files that are uploaded and
downloaded under these names. -/
theorem menu_executed (hF : F.Documented) (hinput : PlainWord input.bytes)
    (houtput : PlainWord output.bytes) (htexts : ∀ text ∈ choice.texts, PlainWord text)
    (hd : (s.processMenuChoice (some choice) input output jobId malloc sent stack).sent
      = s.sent ++ [d])
    (hrun : run Server.step (.init dir) as = some t)
    (hgenuine : ∀ a ∈ as, a.Genuine d (s.clientId, jobId))
    (hhome : Along Server.step (Server.AtHome dir) (.init dir) as)
    (hjob : t.commandJob = some job) (hkey : job.key = (s.clientId, jobId)) :
    words shellKind job.command = some (choice.argv input.bytes output.bytes) ∧
      (input.bytes.head? ≠ some SLASH → ∀ (up : UploadRequest) (now : ℤ),
        (up.clientId, up.jobId) = (s.clientId, jobId) →
          location (resolve t.cwd input.bytes)
            = location (resolve dir (writtenPath up input.bytes now))) ∧
      (output.bytes.head? ≠ some SLASH → ∀ (down : DownloadRequest) (src : SockAddr),
        (down.clientId, down.jobId) = (s.clientId, jobId) →
          location (resolve t.cwd output.bytes)
              = location (resolve dir (reportedPath down output.bytes)) ∧
            location (resolve t.cwd output.bytes)
              = location (resolve dir (sentPath down output.bytes src))) := by
  have hmem : job ∈ t.pendingJobs := by
    unfold Server.commandJob at hjob
    split at hjob
    · exact List.mem_of_getElem? hjob
    · cases hjob
  have horders := AllOrders.of_run (fun a ha => orders_of_genuine hF hd (hgenuine a ha)) hrun
  have hcommand : job.command = choice.command MAX_CMD_LEN input.bytes output.bytes :=
    horders.pending _ (List.mem_map_of_mem hmem) hkey
  have hdir : t.InJobDirectory dir := by
    refine along_invariant (fun _ _ _ hs ha h => hs.step ha h) ?_ hhome hrun
    rintro job ⟨⟩
  obtain ⟨hclient, hid⟩ := Prod.mk.inj hkey
  have hcwd : t.cwd = resolve dir (dirPath s.clientId jobId) := by
    rw [hdir job hjob, hclient, hid]
  refine ⟨?_, fun _ => (location_name hcwd input.length_le).1,
    fun _ => (location_name hcwd output.length_le).2⟩
  rw [hcommand]
  exact words_menu hF choice input output hinput houtput htexts

end Executed

/-- The datagram of the choice. -/
def menuDatagram : Bytes :=
  JobRequest.datagram 0 ⟨2, Vector.replicate 16 1, 7, 1, 39⟩
    (cstr "ffmpeg -i in -vf eq=brightness=0.50 out")

/-- The datagram, the upload of the file and the processing of the job up to its command. -/
def menuRun : List Action :=
  let req : UploadRequest := ⟨3, Vector.replicate 16 1, 7, 3, 2⟩
  [.client (.receive (fillBuffer menuDatagram 0) menuDatagram.length ⟨1, 5000⟩ 0
      (Vector.replicate 16 0)),
    .client (.stat none), .client (.mkdir true), .client (.append true 0), .client (.reply true),
    .client (.receive (fillBuffer (req.datagram 0 (cstr "in")) 0) 50 ⟨1, 5000⟩ 0
      (Vector.replicate 16 0)),
    .client (.enqueue 0), .client (.reply true), .worker 0 .pick, .worker 0 .lookup,
    .connectUpload ⟨0, ⟨1, 2⟩⟩, .worker 0 (.accept true), .worker 0 (.openFile true),
    .worker 0 (.recv 3 3), .worker 0 .close, .worker 0 (.update 0), .worker 0 .finish,
    .processing (.getcwd true), .processing .lock, .processing .check, .processing (.chdir true)]

theorem menu_executed_brighter :
    ∃ t job, run Server.step (.init (cstr "/srv")) menuRun = some t ∧
      t.commandJob = some job ∧
      words shellKind job.command = some (brighter.argv inName.bytes outName.bytes) := by
  have hd : ((JobClient.init ⟨1, 5000⟩ (Vector.replicate 16 1)).processMenuChoice (some brighter)
      inName outName 7 true true (List.replicate 4096 0)).sent = [] ++ [menuDatagram] := by
    decide +kernel
  obtain ⟨t, hrun, hkey⟩ := Option.map_eq_some_iff.mp
    (show (run Server.step (.init (cstr "/srv")) menuRun).map (fun t =>
      t.commandJob.map PendingJob.key) = some (some (Vector.replicate 16 1, 7)) by decide +kernel)
  obtain ⟨job, hjob, hkey⟩ := Option.map_eq_some_iff.mp hkey
  have hgenuine : ∀ a ∈ menuRun, a.Genuine menuDatagram (Vector.replicate 16 1, 7) := by
    simp only [menuRun, List.forall_mem_cons, Action.Genuine, true_and]
    refine ⟨fun _ _ _ _ => ⟨⟨_, rfl⟩, trivial⟩, ?_, by simp⟩
    intro req cmd hread
    have hfilename : (some (Request.job req cmd)).bind Request.filename = some (cstr "in") := by
      rw [← hread]
      decide +kernel
    cases hfilename
  have hhome : Along Server.step (Server.AtHome (cstr "/srv")) (.init (cstr "/srv")) menuRun := by
    decide +kernel
  exact ⟨t, job, hrun, hjob, (menu_executed rationals_documented (by decide) (by decide)
    (by decide) hd hrun hgenuine hhome hjob hkey).1⟩

end Pcd
