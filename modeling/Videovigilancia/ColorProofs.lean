import Mathlib.Logic.Function.Iterate
import Videovigilancia.ConversionProofs

/-! What a change of format does to colors. Three or four channels keep them into every
color format, but for the one branch that does not ask for the order of the machine.
One channel does not: the weights of the three colors make a little less than one, so
that a gray gets darker each time it is computed. -/
namespace Videovigilancia.ColorProofs
open QtOcv ConversionProofs

variable {format out : Format} {height width rows cols : Nat} {byteOrder : ByteOrder}
  {channels : Channels} {matRgbOrder : MatChannelOrder} {cvtGray : CvtGray}

/-- Red, green and blue of a pixel. -/
def rgb (pixel : Nat) : UInt8 × UInt8 × UInt8 := (qRed pixel, qGreen pixel, qBlue pixel)

@[simp] theorem rgb_qRgba (red green blue alpha : UInt8) :
    rgb (qRgba red green blue alpha) = (red, green, blue) := by
  simp [rgb]

@[simp] theorem rgb_qRgb (red green blue : UInt8) :
    rgb (qRgb red green blue) = (red, green, blue) := rgb_qRgba red green blue 255

theorem rgb_gray (level : UInt8) : rgb (grayTable.getD level.toNat 0) = (level, level, level) := by
  have fits : level.toNat < 256 := level.toNat_lt
  simp [grayTable, List.getD_eq_getElem?_getD, fits]

/-! ## From an image to a matrix -/

/-- The channels of a matrix that shows colors: one is enough for grays only. -/
def Enough (format : Format) (channels : Channels) : Prop :=
  channels = .one → format = .indexed8

theorem color_vec3 {mat : Mat rows cols 3} {i : Fin rows} {j : Fin cols} {red green blue : UInt8}
    (same : mat.at_ i j = vec3 matRgbOrder red green blue) :
    color matRgbOrder .three mat i j = (red, green, blue) := by
  cases matRgbOrder <;> simp [color, same, vec3]

theorem color_vec4 {mat : Mat rows cols 4} {i : Fin rows} {j : Fin cols}
    {red green blue alpha : UInt8} (same : mat.at_ i j = vec4 matRgbOrder red green blue alpha) :
    color matRgbOrder .four mat i j = (red, green, blue) := by
  cases matRgbOrder <;> simp [color, same, vec4]

/-- The elements of the matrix have the colors of the image. -/
theorem color_image2Mat_ (enough : Enough format channels) {image : QImage format height width}
    (gray : GrayIndexed image) (i : Fin height) (j : Fin width) :
    color matRgbOrder channels (image2Mat_ byteOrder image channels matRgbOrder) i j =
      rgb (image.pixel byteOrder i j) := by
  cases format with
  | indexed8 =>
    simp only [QImage.pixel, gray rfl, rgb_gray]
    cases channels with
    | one => rfl
    | three => cases matRgbOrder <;> simp [image2Mat_, color]
    | four => cases matRgbOrder <;> simp [image2Mat_, color]
  | rgb32 =>
    simp only [QImage.pixel, rgb_qRgb]
    cases channels with
    | one => cases enough rfl
    | three => exact color_vec3 (by rw [image2Mat_, colorsOfWords, Mat.at_create])
    | four => exact color_vec4 (at_rgb32 image i j)
  | argb32 =>
    simp only [QImage.pixel, rgb]
    cases channels with
    | one => cases enough rfl
    | three => exact color_vec3 (by rw [image2Mat_, colorsOfWords, Mat.at_create])
    | four => exact color_vec4 (at_argb32 image i j)
  | rgb888 =>
    simp only [QImage.pixel, rgb_qRgb]
    cases channels with
    | one => cases enough rfl
    | three => cases matRgbOrder <;> simp [image2Mat_, color]
    | four => exact color_vec4 (by rw [image2Mat_, Mat.at_create])

/-! ## From a matrix to an image -/

/-- The branch that copies four channels although the machine orders them otherwise. -/
def Miscopied (byteOrder : ByteOrder) (channels : Channels) (matRgbOrder : MatChannelOrder)
    (out : Format) : Prop :=
  byteOrder = .bigEndian ∧ channels = .four ∧ matRgbOrder = .bgr ∧ out = .argb32

/-- A pixel that was stored as a word. -/
theorem rgb_stored {red green blue alpha : UInt8} {bytes : Fin 4 → UInt8}
    (stored : bytes = byteOrder.store (qRgba red green blue alpha)) :
    rgb (byteOrder.load bytes) = (red, green, blue) := by
  rw [stored, load_store, rgb_qRgba]

/-- Words that were stored with some alpha. -/
theorem rgb_words {image : QImage .argb32 rows cols} {red green blue alpha : UInt8} {i : Fin rows}
    {j : Fin cols} (stored : image.data i j = byteOrder.store (qRgba red green blue alpha)) :
    rgb (image.pixel byteOrder i j) = (red, green, blue) :=
  rgb_stored stored

theorem data_copied (format : Format) (mat : Mat rows cols format.bytes) (i : Fin rows)
    (j : Fin cols) : (copyToImage [] mat).data i j = mat.at_ i j := by
  rw [data_copyToImage]

/-- The pixels of the image have the colors of the matrix. -/
theorem rgb_mat2Image_ (mat : Mat rows cols channels.count) (colored : out ≠ .indexed8)
    (copied : ¬ Miscopied byteOrder channels matRgbOrder out) (i : Fin rows) (j : Fin cols) :
    rgb ((mat2Image_ cvtGray byteOrder mat out matRgbOrder).pixel byteOrder i j) =
      color matRgbOrder channels mat i j := by
  cases out with
  | indexed8 => exact absurd rfl colored
  | rgb32 =>
    simp only [QImage.pixel, rgb_qRgb]
    exact rgb_stored (funext (QImage.data_create _ _ i j))
  | argb32 =>
    cases channels with
    | one => exact rgb_words (funext (QImage.data_create _ _ i j))
    | three => exact rgb_words (funext (QImage.data_create _ _ i j))
    | four =>
      cases matRgbOrder with
      | rgb =>
        have stored : (mat2Image_ cvtGray byteOrder mat .argb32 .rgb).data i j =
            byteOrder.store (qRgba (mat.at_ i j 0) (mat.at_ i j 1) (mat.at_ i j 2)
              (mat.at_ i j 3)) := by
          funext k
          simp only [mat2Image_, reduceCtorEq, ↓reduceIte, QImage.data_create]
          rfl
        exact rgb_words stored
      | bgr =>
        have little : byteOrder = .littleEndian := by
          cases byteOrder with
          | littleEndian => rfl
          | bigEndian => exact absurd ⟨rfl, rfl, rfl, rfl⟩ copied
        subst little
        have bytes : (mat2Image_ cvtGray .littleEndian mat .argb32 .bgr).data i j = mat.at_ i j :=
          data_copied .argb32 mat i j
        simp only [QImage.pixel, bytes]
        exact rgb_qRgba _ _ _ _
  | rgb888 =>
    simp only [QImage.pixel, rgb_qRgb]
    have data : ∀ k, (mat2Image_ cvtGray byteOrder mat .rgb888 matRgbOrder).data i j k =
        ![(color matRgbOrder channels mat i j).1, (color matRgbOrder channels mat i j).2.1,
          (color matRgbOrder channels mat i j).2.2] k := by
      intro k
      cases channels with
      | one => exact QImage.data_create _ _ i j k
      | four => exact QImage.data_create _ _ i j k
      | three =>
        cases matRgbOrder with
        | bgr => simp only [mat2Image_, reduceCtorEq, ↓reduceIte, QImage.data_create]
        | rgb =>
          have bytes : (mat2Image_ cvtGray byteOrder mat .rgb888 .rgb).data i j = mat.at_ i j :=
            data_copied .rgb888 mat i j
          rw [bytes]
          fin_cases k <;> rfl
    rw [data, data, data]
    rfl

/-! ## From format to format -/

/-- An image as it is shown in another format. -/
def shownAs (cvtGray : CvtGray) (byteOrder : ByteOrder) (matRgbOrder : MatChannelOrder)
    (channels : Channels) (out : Format) (image : QImage format height width) :
    QImage out height width :=
  (mat2Image cvtGray byteOrder (image2Mat_ byteOrder image channels matRgbOrder) (some out)
    matRgbOrder).2

theorem shownAs_eq (cvtGray : CvtGray) (byteOrder : ByteOrder) (matRgbOrder : MatChannelOrder)
    (channels : Channels) (out : Format) (image : QImage format height width) :
    shownAs cvtGray byteOrder matRgbOrder channels out image = mat2Image_ cvtGray byteOrder
      (image2Mat_ byteOrder image channels matRgbOrder) out matRgbOrder := rfl

/-- An opaque black pixel of a big-endian machine. -/
def black : (format : Format) → QImage format 1 1
  | .indexed8 => .create grayTable fun _ _ _ => 0
  | .rgb32 => .create grayTable fun _ _ => ![255, 0, 0, 0]
  | .argb32 => .create grayTable fun _ _ => ![255, 0, 0, 0]
  | .rgb888 => .create grayTable fun _ _ _ => 0

theorem black_gray (format : Format) : GrayIndexed (black format) := by
  rintro rfl
  rfl

/-- The alpha of black becomes its blue. -/
theorem black_miscopied (format : Format) :
    rgb ((shownAs cvtGray .bigEndian .bgr .four .argb32 (black format)).pixel .bigEndian 0 0) ≠
      rgb ((black format).pixel .bigEndian 0 0) := by
  have copied : shownAs cvtGray .bigEndian .bgr .four .argb32 (black format) =
      copyToImage [] (image2Mat_ .bigEndian (black format) .four .bgr) := by
    simp only [shownAs_eq, mat2Image_]
    rfl
  rw [copied]
  cases format <;> decide

/-- Through enough channels every image keeps its colors in every color format, exactly
when the words of a big-endian machine are not copied from blue, green, red, alpha. -/
theorem colors_kept_iff (cvtGray : CvtGray) (byteOrder : ByteOrder) (matRgbOrder : MatChannelOrder)
    (channels : Channels) (format out : Format) (enough : Enough format channels)
    (colored : out ≠ .indexed8) :
    (∀ (height width : Nat) (image : QImage format height width), GrayIndexed image → ∀ i j,
      rgb ((shownAs cvtGray byteOrder matRgbOrder channels out image).pixel byteOrder i j) =
        rgb (image.pixel byteOrder i j)) ↔ ¬ Miscopied byteOrder channels matRgbOrder out := by
  constructor
  · rintro always ⟨rfl, rfl, rfl, rfl⟩
    exact black_miscopied format (always 1 1 (black format) (black_gray format) 0 0)
  · intro copied height width image gray i j
    rw [shownAs_eq, rgb_mat2Image_ _ colored copied, color_image2Mat_ enough gray]

/-- A red pixel of a little-endian machine. -/
def red : QImage .rgb32 1 1 := .create [] fun _ _ => ![0, 0, 255, 255]

theorem colors_kept_red :
    rgb ((shownAs (fun _ _ _ _ _ => .create fun _ _ _ => 0) .littleEndian .bgr .three .rgb888
      red).pixel .littleEndian 0 0) = rgb (red.pixel .littleEndian 0 0) :=
  (colors_kept_iff _ .littleEndian .bgr .three .rgb32 .rgb888 (by simp [Enough])
    (by simp)).mpr (by simp [Miscopied]) 1 1 red (by simp [GrayIndexed]) 0 0

/-! ## Grays -/

theorem toNat_luma (red green blue : UInt8) : (luma red green blue).toNat =
    (red.toNat * 9798 + green.toNat * 19238 + blue.toNat * 3728) / 32768 := by
  have := red.toNat_lt
  have := green.toNat_lt
  have := blue.toNat_lt
  rw [luma, UInt8.toNat_ofNat']
  omega

/-- A gray loses a level, and black stays. -/
theorem luma_gray (level : UInt8) : (luma level level level).toNat = level.toNat - 1 := by
  have := level.toNat_lt
  rw [toNat_luma]
  omega

/-- Between the darkest of the three colors, less one, and the brightest. -/
theorem luma_between (red green blue : UInt8) :
    min red.toNat (min green.toNat blue.toNat) ≤ (luma red green blue).toNat + 1 ∧
      (luma red green blue).toNat ≤ max red.toNat (max green.toNat blue.toNat) - 1 := by
  have := red.toNat_lt
  have := green.toNat_lt
  have := blue.toNat_lt
  rw [toNat_luma]
  omega

/-- The one channel of a color image. -/
theorem at_gray (colored : format ≠ .indexed8) (image : QImage format height width)
    (i : Fin height) (j : Fin width) :
    (image2Mat_ byteOrder image .one matRgbOrder).at_ i j 0 =
      luma (rgb (image.pixel byteOrder i j)).1 (rgb (image.pixel byteOrder i j)).2.1
        (rgb (image.pixel byteOrder i j)).2.2 := by
  cases format with
  | indexed8 => exact absurd rfl colored
  | rgb32 =>
    simp only [QImage.pixel, rgb_qRgb]
    rw [image2Mat_, grayOfWords, Mat.at_create]
  | argb32 => rw [image2Mat_, grayOfWords, Mat.at_create, QImage.pixel, rgb]
  | rgb888 =>
    simp only [QImage.pixel, rgb_qRgb]
    rw [image2Mat_, Mat.at_create]

/-- An image made gray and shown in its own format. -/
def grayed (cvtGray : CvtGray) (byteOrder : ByteOrder) (matRgbOrder : MatChannelOrder)
    (image : QImage format height width) : QImage format height width :=
  shownAs cvtGray byteOrder matRgbOrder .one format image

theorem rgb_grayed (colored : format ≠ .indexed8) (image : QImage format height width)
    (i : Fin height) (j : Fin width) {red green blue : UInt8}
    (before : rgb (image.pixel byteOrder i j) = (red, green, blue)) :
    rgb ((grayed cvtGray byteOrder matRgbOrder image).pixel byteOrder i j) =
      (luma red green blue, luma red green blue, luma red green blue) := by
  rw [grayed, shownAs_eq, rgb_mat2Image_ _ colored (by simp [Miscopied]), color, at_gray colored, before]

/-- However often an image is made gray, it gets darker by a level each time: the first
time nothing stays as bright as its brightest color, and in the end all is black. -/
theorem grays_fade (cvtGray : CvtGray) (byteOrder : ByteOrder) (matRgbOrder : MatChannelOrder)
    (format : Format) (colored : format ≠ .indexed8) (height width : Nat)
    (image : QImage format height width) (i : Fin height) (j : Fin width) (n : Nat) :
    let (red, green, blue) := rgb (image.pixel byteOrder i j)
    ∃ level : UInt8,
      rgb (((grayed cvtGray byteOrder matRgbOrder)^[n + 1] image).pixel byteOrder i j) =
        (level, level, level) ∧
      level.toNat = (luma red green blue).toNat - n ∧
      min red.toNat (min green.toNat blue.toNat) ≤ level.toNat + (n + 1) ∧
      level.toNat ≤ max red.toNat (max green.toNat blue.toNat) - (n + 1) := by
  obtain ⟨red, green, blue, before⟩ : ∃ red green blue,
      rgb (image.pixel byteOrder i j) = (red, green, blue) := ⟨_, _, _, rfl⟩
  rw [before]
  dsimp only
  have between := luma_between red green blue
  suffices fades : ∃ level : UInt8,
      rgb (((grayed cvtGray byteOrder matRgbOrder)^[n + 1] image).pixel byteOrder i j) =
        (level, level, level) ∧ level.toNat = (luma red green blue).toNat - n by
    obtain ⟨level, shown, value⟩ := fades
    exact ⟨level, shown, value, by omega, by omega⟩
  induction n with
  | zero => exact ⟨_, rgb_grayed colored image i j before, rfl⟩
  | succ n ih =>
    obtain ⟨level, shown, value⟩ := ih
    rw [Function.iterate_succ_apply']
    refine ⟨_, rgb_grayed colored _ i j shown, ?_⟩
    rw [luma_gray, value]
    omega

/-- White is made gray three times. -/
theorem grays_fade_white : ∃ level : UInt8,
    rgb (((grayed (fun _ _ _ _ _ => .create fun _ _ _ => 0) .littleEndian .rgb)^[3]
      (QImage.create [] fun _ _ _ => 255 : QImage .rgb888 1 1)).pixel .littleEndian 0 0) =
        (level, level, level) ∧ level.toNat = 252 := by
  obtain ⟨level, shown, value, -⟩ := grays_fade (fun _ _ _ _ _ => .create fun _ _ _ => 0)
    .littleEndian .rgb .rgb888 (by simp) 1 1 (QImage.create [] fun _ _ _ => 255) 0 0 2
  exact ⟨level, shown, value.trans (by decide)⟩

end Videovigilancia.ColorProofs
