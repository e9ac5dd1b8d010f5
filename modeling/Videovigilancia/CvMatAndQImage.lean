import Mathlib.Data.Fin.VecNotation
import Mathlib.Logic.Equiv.Fin.Basic
import Videovigilancia.QtValues

/-! Images and matrices, and the 8-bit conversions between them,
`Client/cvmatandqimage.cpp`. Both are lines of bytes with room behind the last
pixel; a pixel is a group of bytes, and four of them read as a `quint32` come in
the order of the machine. A loop that assigns each element of a matrix or an
image is a function of its row and column. -/
namespace Videovigilancia

/-- A `QRgb`, the number `0xAARRGGBB`. -/
def qRgba (red green blue alpha : UInt8) : Nat :=
  2 ^ 24 * alpha.toNat + 2 ^ 16 * red.toNat + 2 ^ 8 * green.toNat + blue.toNat

def qRgb (red green blue : UInt8) : Nat := qRgba red green blue 255

def qAlpha (rgb : Nat) : UInt8 := UInt8.ofNat (rgb / 2 ^ 24)
def qRed (rgb : Nat) : UInt8 := UInt8.ofNat (rgb / 2 ^ 16)
def qGreen (rgb : Nat) : UInt8 := UInt8.ofNat (rgb / 2 ^ 8)
def qBlue (rgb : Nat) : UInt8 := UInt8.ofNat rgb

/-- `QSysInfo::ByteOrder`. -/
inductive ByteOrder where
  | littleEndian
  | bigEndian
  deriving DecidableEq

/-- Four bytes in memory read as a `quint32`. -/
def ByteOrder.load (byteOrder : ByteOrder) (bytes : Fin 4 → UInt8) : Nat :=
  match byteOrder with
  | .littleEndian => qRgba (bytes 2) (bytes 1) (bytes 0) (bytes 3)
  | .bigEndian => qRgba (bytes 1) (bytes 2) (bytes 3) (bytes 0)

/-- A `quint32` written to memory. -/
def ByteOrder.store (byteOrder : ByteOrder) (rgb : Nat) : Fin 4 → UInt8 :=
  match byteOrder with
  | .littleEndian => ![qBlue rgb, qGreen rgb, qRed rgb, qAlpha rgb]
  | .bigEndian => ![qAlpha rgb, qRed rgb, qGreen rgb, qBlue rgb]

/-! ## Images -/

/-- The formats of a `QImage` that are converted without going through another. -/
inductive Format where
  | indexed8
  | rgb32
  | argb32
  | rgb888
  deriving DecidableEq

/-- The other formats. -/
inductive PackedFormat where
  | mono
  | monoLSB
  | argb32Premultiplied
  | rgb16
  | argb8565Premultiplied
  | rgb666
  | argb6666Premultiplied
  | rgb555
  | argb8555Premultiplied
  | rgb444
  | argb4444Premultiplied
  deriving DecidableEq

/-- The format that `image2Mat` converts such an image to first. -/
def PackedFormat.target : PackedFormat → Format
  | .mono | .monoLSB => .indexed8
  | .rgb444 | .rgb555 | .rgb666 | .rgb16 => .rgb888
  | _ => .rgb32

/-- `depth()/8`, the bytes of a pixel. -/
abbrev Format.bytes : Format → Nat
  | .indexed8 => 1
  | .rgb32 => 4
  | .argb32 => 4
  | .rgb888 => 3

/-- A `QImage` with its lines and the color table of an indexed one. -/
structure QImage (format : Format) (height width : Nat) where
  bytesPerLine : Nat
  room : width * format.bytes ≤ bytesPerLine
  scanLine : Fin height → Fin bytesPerLine → UInt8
  colorTable : List Nat

/-- A `QImage` of any format. -/
inductive Picture (height width : Nat) where
  | direct {format : Format} (image : QImage format height width)
  | packed (format : PackedFormat) (bytesPerLine : Nat)
      (scanLine : Fin height → Fin bytesPerLine → UInt8)

/-- The table of grays, `qRgb(i,i,i)`. -/
def grayTable : List Nat := (List.range 256).map fun i => qRgb (.ofNat i) (.ofNat i) (.ofNat i)

namespace QImage

variable {format : Format} {height width : Nat}

/-- Byte `k` of the pixel in column `j`, where `data` stands after `j` turns of a loop. -/
def data (image : QImage format height width) (i : Fin height) (j : Fin width)
    (k : Fin format.bytes) : UInt8 :=
  image.scanLine i ((Fin.mkDivMod j k).castLE image.room)

/-- `QImage outImage(width, height, format)` with every pixel written. Its lines
end on a multiple of four bytes; what stands behind the pixels nothing reads. -/
def create (colorTable : List Nat)
    (pixel : Fin height → Fin width → Fin format.bytes → UInt8) : QImage format height width where
  bytesPerLine := (width * format.bytes + 3) / 4 * 4
  room := by omega
  scanLine i n :=
    if inside : n.val < width * format.bytes then
      pixel i (Fin.divNat ⟨n, inside⟩) (Fin.modNat ⟨n, inside⟩)
    else 0
  colorTable := colorTable

/-- `pixel(j, i)`: what the image shows there. -/
def pixel (byteOrder : ByteOrder) (image : QImage format height width) (i : Fin height)
    (j : Fin width) : Nat :=
  match format with
  | .indexed8 => image.colorTable.getD (image.data i j 0).toNat 0
  | .rgb32 =>
    let rgb := byteOrder.load (image.data i j)
    qRgb (qRed rgb) (qGreen rgb) (qBlue rgb)
  | .argb32 => byteOrder.load (image.data i j)
  | .rgb888 => qRgb (image.data i j 0) (image.data i j 1) (image.data i j 2)

@[simp] theorem data_create (colorTable : List Nat)
    (pixel : Fin height → Fin width → Fin format.bytes → UInt8) (i : Fin height) (j : Fin width)
    (k : Fin format.bytes) :
    (create colorTable pixel).data i j k = pixel i j k := by
  have inside : (Fin.mkDivMod j k).val < width * format.bytes := (Fin.mkDivMod j k).isLt
  refine (dif_pos inside).trans ?_
  change pixel i (Fin.mkDivMod j k).divNat (Fin.mkDivMod j k).modNat = _
  rw [Fin.divNat_mkDivMod, Fin.modNat_mkDivMod]

@[simp] theorem colorTable_create (colorTable : List Nat)
    (pixel : Fin height → Fin width → Fin format.bytes → UInt8) :
    (create colorTable pixel).colorTable = colorTable := rfl

end QImage

/-! ## Matrices -/

/-- A `cv::Mat` of `uchar` elements with some channels. -/
structure Mat (rows cols channels : Nat) where
  step : Nat
  room : cols * channels ≤ step
  row : Fin rows → Fin step → UInt8

namespace Mat

variable {rows cols channels : Nat}

/-- `mat.at<cv::Vec>(i, j)`. -/
def at_ (mat : Mat rows cols channels) (i : Fin rows) (j : Fin cols) (k : Fin channels) : UInt8 :=
  mat.row i ((Fin.mkDivMod j k).castLE mat.room)

/-- `cv::Mat(rows, cols, type)` with every element assigned. -/
def create (vec : Fin rows → Fin cols → Fin channels → UInt8) : Mat rows cols channels where
  step := cols * channels
  room := Nat.le_refl _
  row i n := vec i n.divNat n.modNat

@[simp] theorem at_create (vec : Fin rows → Fin cols → Fin channels → UInt8) :
    (create vec).at_ = vec := by
  funext i j k
  have same : (Fin.mkDivMod j k).castLE (create vec).room = Fin.mkDivMod j k := rfl
  rw [at_, same]
  simp only [create, Fin.divNat_mkDivMod, Fin.modNat_mkDivMod]

end Mat

/-! ## Conversions -/

namespace QtOcv

/-- `MatChannelOrder`; `MCO_RGBA` is `MCO_RGB` and `MCO_BGRA` is `MCO_BGR`. -/
inductive MatChannelOrder where
  | bgr
  | rgb
  deriving DecidableEq

/-- The supported numbers of channels. -/
inductive Channels where
  | one
  | three
  | four
  deriving DecidableEq

abbrev Channels.count : Channels → Nat
  | .one => 1
  | .three => 3
  | .four => 4

variable {format : Format} {height width rows cols : Nat}

/-- `std::memcpy(mat.row(i).data, data, ..)` of whole lines. -/
def copyToMat (image : QImage format height width) : Mat height width format.bytes where
  step := width * format.bytes
  room := Nat.le_refl _
  row i n := image.scanLine i (n.castLE image.room)

/-- `std::memcpy(data, mat.row(i).data, ..)` of whole lines. -/
def copyToImage (colorTable : List Nat) (mat : Mat rows cols format.bytes) :
    QImage format rows cols where
  bytesPerLine := (cols * format.bytes + 3) / 4 * 4
  room := by omega
  scanLine i n :=
    if inside : n.val < cols * format.bytes then mat.row i ⟨n, inside.trans_le mat.room⟩ else 0
  colorTable := colorTable

/-- The gray value in fixed point. -/
def luma (red green blue : UInt8) : UInt8 :=
  UInt8.ofNat ((red.toNat * 9798 + green.toNat * 19238 + blue.toNat * 3728) / 32768)

/-- A pixel of three channels. -/
def vec3 (matRgbOrder : MatChannelOrder) (red green blue : UInt8) : Fin 3 → UInt8 :=
  if matRgbOrder = .rgb then ![red, green, blue] else ![blue, green, red]

/-- A pixel of four channels. -/
def vec4 (matRgbOrder : MatChannelOrder) (red green blue alpha : UInt8) : Fin 4 → UInt8 :=
  if matRgbOrder = .rgb then ![red, green, blue, alpha] else ![blue, green, red, alpha]

/-- The one-channel branch of a 32-bit image. -/
def grayOfWords (byteOrder : ByteOrder) (bytes : Fin height → Fin width → Fin 4 → UInt8) :
    Mat height width 1 :=
  .create fun i j _ =>
    let d := byteOrder.load (bytes i j)
    luma (qRed d) (qGreen d) (qBlue d)

/-- Its three-channel branch. -/
def colorsOfWords (byteOrder : ByteOrder) (matRgbOrder : MatChannelOrder)
    (bytes : Fin height → Fin width → Fin 4 → UInt8) : Mat height width 3 :=
  .create fun i j =>
    let d := byteOrder.load (bytes i j)
    vec3 matRgbOrder (qRed d) (qGreen d) (qBlue d)

/-- The loop of its four-channel branch. -/
def vecsOfWords (byteOrder : ByteOrder) (matRgbOrder : MatChannelOrder)
    (bytes : Fin height → Fin width → Fin 4 → UInt8) : Mat height width 4 :=
  .create fun i j =>
    let d := byteOrder.load (bytes i j)
    vec4 matRgbOrder (qRed d) (qGreen d) (qBlue d) (qAlpha d)

/-- `image2Mat_<uchar>`. -/
def image2Mat_ (byteOrder : ByteOrder) (image : QImage format height width) (channels : Channels)
    (matRgbOrder : MatChannelOrder) : Mat height width channels.count :=
  match channels, format, image with
  | .one, .indexed8, image => copyToMat image
  | .one, .rgb888, image => .create fun i j _ =>
    luma (image.data i j 0) (image.data i j 1) (image.data i j 2)
  | .one, .rgb32, image => grayOfWords byteOrder image.data
  | .one, .argb32, image => grayOfWords byteOrder image.data
  | .three, .indexed8, image => .create fun i j =>
    ![image.data i j 0, image.data i j 0, image.data i j 0]
  | .three, .rgb888, image =>
    if matRgbOrder = .rgb then copyToMat image
    else .create fun i j => ![image.data i j 2, image.data i j 1, image.data i j 0]
  | .three, .rgb32, image => colorsOfWords byteOrder matRgbOrder image.data
  | .three, .argb32, image => colorsOfWords byteOrder matRgbOrder image.data
  | .four, .indexed8, image => .create fun i j =>
    ![image.data i j 0, image.data i j 0, image.data i j 0, 255]
  | .four, .rgb888, image => .create fun i j =>
    vec4 matRgbOrder (image.data i j 0) (image.data i j 1) (image.data i j 2) 255
  | .four, .rgb32, image =>
    if matRgbOrder = .bgr ∧ byteOrder = .littleEndian then copyToMat image
    else vecsOfWords byteOrder matRgbOrder image.data
  | .four, .argb32, image =>
    if matRgbOrder = .bgr ∧ byteOrder = .littleEndian then copyToMat image
    else vecsOfWords byteOrder matRgbOrder image.data

/-- `image.depth()/8` channels. -/
def depthChannels : Format → Channels
  | .indexed8 => .one
  | .rgb32 => .four
  | .argb32 => .four
  | .rgb888 => .three

/-- `QImage::convertToFormat`. -/
abbrev ConvertToFormat :=
  ∀ (height width : Nat), Picture height width → (format : Format) → QImage format height width

/-- `image2Mat` into a type of depth `CV_8U`, with its channels or, for
`CV_8UC(0)`, those of the image. A null image has no pixels, nor has its matrix. -/
def image2Mat (convertToFormat : ConvertToFormat) (byteOrder : ByteOrder)
    (img : Picture height width) (channels : Option Channels) (matRgbOrder : MatChannelOrder) :
    (channels : Channels) × Mat height width channels.count :=
  match img with
  | @Picture.direct _ _ format image =>
    ⟨channels.getD (depthChannels format), image2Mat_ byteOrder image _ matRgbOrder⟩
  | .packed format bytesPerLine scanLine =>
    let image := convertToFormat _ _ (.packed format bytesPerLine scanLine) format.target
    ⟨channels.getD (depthChannels format.target), image2Mat_ byteOrder image _ matRgbOrder⟩

/-- The color of element `(i, j)`, with `mat_red` and `mat_blue` by the order of the
channels; a single channel is all three. -/
def color (matRgbOrder : MatChannelOrder) (channels : Channels)
    (mat : Mat rows cols channels.count) (i : Fin rows) (j : Fin cols) : UInt8 × UInt8 × UInt8 :=
  match channels, mat with
  | .one, mat => (mat.at_ i j 0, mat.at_ i j 0, mat.at_ i j 0)
  | .three, mat =>
    if matRgbOrder = .bgr then (mat.at_ i j 2, mat.at_ i j 1, mat.at_ i j 0)
    else (mat.at_ i j 0, mat.at_ i j 1, mat.at_ i j 2)
  | .four, mat =>
    if matRgbOrder = .bgr then (mat.at_ i j 2, mat.at_ i j 1, mat.at_ i j 0)
    else (mat.at_ i j 0, mat.at_ i j 1, mat.at_ i j 2)

/-- `cv::cvtColor` into one channel. -/
abbrev CvtGray :=
  ∀ (rows cols : Nat) (channels : Channels), MatChannelOrder → Mat rows cols channels.count →
    Mat rows cols 1

/-- `mat2Image_<uchar>`. -/
def mat2Image_ (cvtGray : CvtGray) (byteOrder : ByteOrder) {channels : Channels}
    (mat : Mat rows cols channels.count) (format : Format) (matRgbOrder : MatChannelOrder) :
    QImage format rows cols :=
  match format, channels, mat with
  | .argb32, .four, mat =>
    -- the order of the machine is not asked for here
    if matRgbOrder = .bgr then copyToImage [] mat
    else .create [] fun i j =>
      let (red, green, blue) := color matRgbOrder .four mat i j
      byteOrder.store (qRgba red green blue (mat.at_ i j 3))
  | .argb32, channels, mat | .rgb32, channels, mat => .create [] fun i j =>
    let (red, green, blue) := color matRgbOrder channels mat i j
    byteOrder.store (qRgb red green blue)
  | .rgb888, channels, mat =>
    match channels, mat with
    | .three, mat =>
      if matRgbOrder = .rgb then copyToImage [] mat
      else .create [] fun i j =>
        let (red, green, blue) := color matRgbOrder .three mat i j
        ![red, green, blue]
    | channels, mat => .create [] fun i j =>
      let (red, green, blue) := color matRgbOrder channels mat i j
      ![red, green, blue]
  | .indexed8, channels, mat =>
    match channels, mat with
    | .one, mat => copyToImage grayTable mat
    | channels, mat => copyToImage grayTable (cvtGray rows cols channels matRgbOrder mat)

/-- The format `mat2Image` selects itself. -/
def channelsFormat : Channels → Format
  | .one => .indexed8
  | .three => .rgb888
  | .four => .argb32

/-- `mat2Image` of a matrix of depth `CV_8U`; `none` is `Format_Invalid`. -/
def mat2Image (cvtGray : CvtGray) (byteOrder : ByteOrder) {channels : Channels}
    (mat : Mat rows cols channels.count) (format : Option Format) (matRgbOrder : MatChannelOrder) :
    (format : Format) × QImage format rows cols :=
  ⟨format.getD (channelsFormat channels), mat2Image_ cvtGray byteOrder mat _ matRgbOrder⟩

/-- `image2Mat_shared`: the matrix is the lines of the image. -/
def image2Mat_shared : {format : Format} → QImage format height width →
    Mat height width (depthChannels format).count
  | .indexed8, img => ⟨img.bytesPerLine, img.room, img.scanLine⟩
  | .rgb32, img => ⟨img.bytesPerLine, img.room, img.scanLine⟩
  | .argb32, img => ⟨img.bytesPerLine, img.room, img.scanLine⟩
  | .rgb888, img => ⟨img.bytesPerLine, img.room, img.scanLine⟩

/-- `mat2Image_shared`. -/
def mat2Image_shared : {channels : Channels} → Mat rows cols channels.count →
    QImage (channelsFormat channels) rows cols
  | .one, mat => ⟨mat.step, mat.room, mat.row, grayTable⟩
  | .three, mat => ⟨mat.step, mat.room, mat.row, []⟩
  | .four, mat => ⟨mat.step, mat.room, mat.row, []⟩

end QtOcv

end Videovigilancia
