import Mathlib.Tactic.FinCases
import Videovigilancia.CvMatAndQImage

/-! Images survive the way through a matrix. The branches that copy whole lines
give what their loops would, so an image of any size shows the same after
`image2Mat` and `mat2Image`; the one exception is the branch that copies without
asking for the order of the machine. -/
namespace Videovigilancia.ConversionProofs
open QtOcv

variable {format : Format} {height width rows cols : Nat} {byteOrder : ByteOrder}
  {matRgbOrder : MatChannelOrder}

/-! ## Words and their bytes -/

section Words
variable (red green blue alpha : UInt8)

@[simp] theorem qAlpha_qRgba : qAlpha (qRgba red green blue alpha) = alpha := by
  have := red.toNat_lt
  have := green.toNat_lt
  have := blue.toNat_lt
  have value : qRgba red green blue alpha / 2 ^ 24 = alpha.toNat := by
    simp only [qRgba]
    omega
  rw [qAlpha, value, UInt8.ofNat_toNat]

@[simp] theorem qRed_qRgba : qRed (qRgba red green blue alpha) = red := by
  have := green.toNat_lt
  have := blue.toNat_lt
  have value : qRgba red green blue alpha / 2 ^ 16 = red.toNat + 2 ^ 8 * alpha.toNat := by
    simp only [qRgba]
    omega
  apply UInt8.toNat_inj.mp
  have := red.toNat_lt
  rw [qRed, value, UInt8.toNat_ofNat']
  omega

@[simp] theorem qGreen_qRgba : qGreen (qRgba red green blue alpha) = green := by
  have := blue.toNat_lt
  have value : qRgba red green blue alpha / 2 ^ 8 =
      green.toNat + 2 ^ 8 * (red.toNat + 2 ^ 8 * alpha.toNat) := by
    simp only [qRgba]
    omega
  apply UInt8.toNat_inj.mp
  have := green.toNat_lt
  rw [qGreen, value, UInt8.toNat_ofNat']
  omega

@[simp] theorem qBlue_qRgba : qBlue (qRgba red green blue alpha) = blue := by
  apply UInt8.toNat_inj.mp
  have := blue.toNat_lt
  rw [qBlue, UInt8.toNat_ofNat', qRgba]
  omega

/-- A word is read back as it was written, whatever the order of the machine. -/
@[simp] theorem load_store : byteOrder.load (byteOrder.store (qRgba red green blue alpha)) =
    qRgba red green blue alpha := by
  cases byteOrder <;> simp [ByteOrder.load, ByteOrder.store]

end Words

/-- The four parts of a word are the word. -/
theorem load_parts (bytes : Fin 4 → UInt8) :
    qRgba (qRed (byteOrder.load bytes)) (qGreen (byteOrder.load bytes))
      (qBlue (byteOrder.load bytes)) (qAlpha (byteOrder.load bytes)) = byteOrder.load bytes := by
  cases byteOrder <;> simp [ByteOrder.load]

/-! ## Whole lines -/

/-- A line that is copied holds the pixels of the image. -/
@[simp] theorem at_copyToMat (image : QImage format height width) :
    (copyToMat image).at_ = image.data := rfl

@[simp] theorem data_copyToImage (colorTable : List Nat) (mat : Mat rows cols format.bytes) :
    (copyToImage colorTable mat).data = mat.at_ := by
  funext i j k
  exact dif_pos (Fin.mkDivMod j k).isLt

@[simp] theorem colorTable_copyToImage (colorTable : List Nat) (mat : Mat rows cols format.bytes) :
    (copyToImage colorTable mat).colorTable = colorTable := rfl

/-- The four channels of a word. -/
def channelsOf (matRgbOrder : MatChannelOrder) (rgb : Nat) : Fin 4 → UInt8 :=
  vec4 matRgbOrder (qRed rgb) (qGreen rgb) (qBlue rgb) (qAlpha rgb)

/-- On a little-endian machine four bytes in memory are blue, green, red and alpha. -/
theorem channelsOf_load (bytes : Fin 4 → UInt8) :
    channelsOf .bgr (ByteOrder.littleEndian.load bytes) = bytes := by
  funext k
  fin_cases k <;> simp [channelsOf, vec4, ByteOrder.load]

/-- The branch that copies gives what the loop would. -/
theorem words_copied {copied : Mat height width 4} {bytes : Fin height → Fin width → Fin 4 → UInt8}
    (same : copied.at_ = bytes) (i : Fin height) (j : Fin width) :
    (if matRgbOrder = .bgr ∧ byteOrder = .littleEndian then copied
      else vecsOfWords byteOrder matRgbOrder bytes).at_ i j =
      channelsOf matRgbOrder (byteOrder.load (bytes i j)) := by
  split
  · rename_i fast
    rw [fast.1, fast.2, channelsOf_load, same]
  · rw [vecsOfWords, Mat.at_create]
    rfl

theorem at_rgb32 (image : QImage .rgb32 height width) (i : Fin height) (j : Fin width) :
    (image2Mat_ byteOrder image .four matRgbOrder).at_ i j =
      channelsOf matRgbOrder (byteOrder.load (image.data i j)) := by
  simp only [image2Mat_]
  exact words_copied (at_copyToMat image) i j

theorem at_argb32 (image : QImage .argb32 height width) (i : Fin height) (j : Fin width) :
    (image2Mat_ byteOrder image .four matRgbOrder).at_ i j =
      channelsOf matRgbOrder (byteOrder.load (image.data i j)) := by
  simp only [image2Mat_]
  exact words_copied (at_copyToMat image) i j

/-- The channels are read in the order they are written. -/
theorem color_channelsOf {mat : Mat rows cols 4} {i : Fin rows} {j : Fin cols} {rgb : Nat}
    (same : mat.at_ i j = channelsOf matRgbOrder rgb) :
    color matRgbOrder .four mat i j = (qRed rgb, qGreen rgb, qBlue rgb) ∧
      mat.at_ i j 3 = qAlpha rgb := by
  cases matRgbOrder <;> simp [color, same, channelsOf, vec4]

/-! ## There and back -/

/-- `image2Mat` with the channels of the image, then `mat2Image` with its format. -/
def thereAndBack (cvtGray : CvtGray) (byteOrder : ByteOrder) (matRgbOrder : MatChannelOrder)
    (image : QImage format height width) : QImage format height width :=
  (mat2Image cvtGray byteOrder (image2Mat_ byteOrder image (depthChannels format) matRgbOrder)
    (some format) matRgbOrder).2

theorem thereAndBack_eq (cvtGray : CvtGray) (byteOrder : ByteOrder)
    (matRgbOrder : MatChannelOrder) (image : QImage format height width) :
    thereAndBack cvtGray byteOrder matRgbOrder image = mat2Image_ cvtGray byteOrder
      (image2Mat_ byteOrder image (depthChannels format) matRgbOrder) format matRgbOrder := rfl

/-- Where `mat2Image_` copies words of another order than `image2Mat_` wrote. -/
def Reversed (byteOrder : ByteOrder) (format : Format) (matRgbOrder : MatChannelOrder) : Prop :=
  byteOrder = .bigEndian ∧ format = .argb32 ∧ matRgbOrder = .bgr

variable {cvtGray : CvtGray}

theorem indexed8_back (image : QImage .indexed8 height width) :
    thereAndBack cvtGray byteOrder matRgbOrder image =
      copyToImage grayTable (copyToMat image) := rfl

theorem rgb888_back (image : QImage .rgb888 height width) :
    (thereAndBack cvtGray byteOrder matRgbOrder image).data = image.data := by
  cases matRgbOrder with
  | rgb => exact data_copyToImage [] (copyToMat image)
  | bgr =>
    funext i j k
    simp only [thereAndBack_eq, mat2Image_, depthChannels, image2Mat_]
    fin_cases k
    · simp [color]
    · simp [color]
    · simp [color]
      rfl

theorem rgb32_back (image : QImage .rgb32 height width) (i : Fin height) (j : Fin width) :
    (thereAndBack cvtGray byteOrder matRgbOrder image).pixel byteOrder i j =
      image.pixel byteOrder i j := by
  have colors : color matRgbOrder .four (image2Mat_ byteOrder image .four matRgbOrder) i j = _ :=
    (color_channelsOf (at_rgb32 image i j)).1
  have written : (thereAndBack cvtGray byteOrder matRgbOrder image).data i j =
      byteOrder.store (image.pixel byteOrder i j) := by
    funext k
    apply (QImage.data_create _ _ i j k).trans
    simp only [depthChannels, colors, QImage.pixel]
  simp only [QImage.pixel] at written ⊢
  simp [written, qRgb]

theorem argb32_back (image : QImage .argb32 height width)
    (same : ¬ Reversed byteOrder .argb32 matRgbOrder) (i : Fin height) (j : Fin width) :
    (thereAndBack cvtGray byteOrder matRgbOrder image).pixel byteOrder i j =
      image.pixel byteOrder i j := by
  cases matRgbOrder with
  | bgr =>
    have little : byteOrder = .littleEndian := by
      cases byteOrder with
      | littleEndian => rfl
      | bigEndian => exact absurd ⟨rfl, rfl, rfl⟩ same
    subst little
    have copied : thereAndBack cvtGray .littleEndian .bgr image =
        copyToImage [] (copyToMat image) := by
      simp only [thereAndBack_eq, depthChannels, image2Mat_, mat2Image_]
      rfl
    simp only [copied, QImage.pixel, data_copyToImage, at_copyToMat]
  | rgb =>
    obtain ⟨colors, alpha⟩ : color .rgb .four (image2Mat_ byteOrder image .four .rgb) i j = _ ∧ _ :=
      color_channelsOf (at_argb32 image i j)
    have written : (thereAndBack cvtGray byteOrder .rgb image).data i j =
        byteOrder.store (byteOrder.load (image.data i j)) := by
      funext k
      simp only [thereAndBack_eq, mat2Image_, depthChannels, reduceCtorEq, ↓reduceIte,
        QImage.data_create, colors, alpha, load_parts]
    simp only [QImage.pixel, written]
    rw [← load_parts (image.data i j), load_store]

/-- The color table of an indexed image is set to the grays. -/
def GrayIndexed (image : QImage format height width) : Prop :=
  format = .indexed8 → image.colorTable = grayTable

/-- A pixel that is not the same read backwards. -/
def blue : QImage .argb32 1 1 := .create [] fun _ _ => ![0, 0, 0, 1]

theorem blue_reversed :
    (thereAndBack cvtGray .bigEndian .bgr blue).pixel .bigEndian 0 0 ≠ blue.pixel .bigEndian 0 0 := by
  have copied : thereAndBack cvtGray .bigEndian .bgr blue =
      copyToImage [] (vecsOfWords .bigEndian .bgr blue.data) := by
    simp only [thereAndBack_eq, depthChannels, image2Mat_, mat2Image_]
    rfl
  rw [copied]
  decide

/-- Every image shows the same after the way there and back, unless four channels in
the order blue, green, red, alpha meet a big-endian machine. -/
theorem shows_same_iff (cvtGray : CvtGray) (byteOrder : ByteOrder) (format : Format)
    (matRgbOrder : MatChannelOrder) :
    (∀ (height width : Nat) (image : QImage format height width), GrayIndexed image →
      ∀ i j, (thereAndBack cvtGray byteOrder matRgbOrder image).pixel byteOrder i j =
        image.pixel byteOrder i j) ↔ ¬ Reversed byteOrder format matRgbOrder := by
  constructor
  · rintro always ⟨rfl, rfl, rfl⟩
    exact blue_reversed (always 1 1 blue (by simp [GrayIndexed]) 0 0)
  · intro same height width image gray i j
    cases format with
    | indexed8 => simp only [indexed8_back, QImage.pixel, data_copyToImage, at_copyToMat,
        colorTable_copyToImage, gray rfl]
    | rgb32 => exact rgb32_back image i j
    | argb32 => exact argb32_back image same i j
    | rgb888 => simp only [QImage.pixel, rgb888_back]

/-! ## Views without a copy -/

/-- The order of the channels in the lines of an image. -/
def lineOrder : Format → MatChannelOrder
  | .rgb888 => .rgb
  | _ => .bgr

/-- On a little-endian machine the matrix over the lines of an image has the elements of
a converted one, and the image over the lines of a matrix, however far apart, shows
what a converted one does. -/
theorem shared_as_converted (cvtGray : CvtGray) :
    (∀ (format : Format) (height width : Nat) (image : QImage format height width),
      (image2Mat_shared image).at_ = (image2Mat_ .littleEndian image (depthChannels format)
        (lineOrder format)).at_) ∧
    ∀ (channels : Channels) (rows cols : Nat) (mat : Mat rows cols channels.count) (i : Fin rows)
      (j : Fin cols), (mat2Image_shared mat).pixel .littleEndian i j =
        (mat2Image_ cvtGray .littleEndian mat (channelsFormat channels)
          (lineOrder (channelsFormat channels))).pixel .littleEndian i j := by
  constructor
  · intro format height width image
    cases format with
    | rgb32 =>
      funext i j
      exact (channelsOf_load _).symm.trans (at_rgb32 image i j).symm
    | argb32 =>
      funext i j
      exact (channelsOf_load _).symm.trans (at_argb32 image i j).symm
    | _ => rfl
  · intro channels rows cols mat i j
    cases channels with
    | one =>
      have copied : mat2Image_ cvtGray .littleEndian mat .indexed8 .bgr =
        copyToImage grayTable mat := rfl
      simp only [channelsFormat, lineOrder, copied, QImage.pixel, data_copyToImage]
      rfl
    | three =>
      have copied : mat2Image_ cvtGray .littleEndian mat .rgb888 .rgb = copyToImage [] mat := rfl
      simp only [channelsFormat, lineOrder, copied, QImage.pixel, data_copyToImage]
      rfl
    | four =>
      have copied : mat2Image_ cvtGray .littleEndian mat .argb32 .bgr = copyToImage [] mat := rfl
      simp only [channelsFormat, lineOrder, copied, QImage.pixel, data_copyToImage]
      rfl

end Videovigilancia.ConversionProofs
