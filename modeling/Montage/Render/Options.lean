import Montage.Fault
/-!
What a render may be asked for besides the timeline, and the flags of the output file.
-/
namespace Montage

structure Options where
  /-- The length of the output; that of the timeline when absent. -/
  length : Option Float := none
  output : String := "output.mp4"
  /-- Where the contents of text overlays are put for the renderer to read. -/
  workFolder : String := "."
  width : Int := 1920
  height : Int := 1080
  /-- How many numbers were given for the size. -/
  numbers : Nat := 2
  rate : Int := 30
  policy : String := "first"
  codec : String := "libx264"
  font : Option String := none
  deriving DecidableEq

/-- The size of a picture is two numbers, and they and its rate are written into the graph. -/
def Options.checkPicture (o : Options) : Except Fault Unit := do
  if o.numbers ≠ 2 then throw (.misused (.unpaired o.numbers))
  checkDigits o.width
  checkDigits o.height
  checkDigits o.rate

/-- The codec only chooses between the software and the hardware encoder. -/
def encodeFlags (codec : String) : List String :=
  let video :=
    if codec = "h264_nvenc" then ["-c:v", codec, "-preset", "medium", "-cq", "23"]
    else ["-c:v", "libx264", "-preset", "medium", "-crf", "23"]
  video ++ ["-pix_fmt", "yuv420p", "-c:a", "aac", "-b:a", "192k"]

end Montage
