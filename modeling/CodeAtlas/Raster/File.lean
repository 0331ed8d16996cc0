import CodeAtlas.Raster.Boxed
import CodeAtlas.Raster.Coded
import CodeAtlas.Raster.Format

/-!
# Picture files

The bytes of a picture in any of the known formats.
-/

namespace CodeAtlas

namespace Picture

/-- The bytes of the picture in a format. -/
def encode (picture : Picture) : PictureFormat → ByteArray
  | .png => picture.png
  | .bmp => picture.bmp
  | .tga => picture.tga
  | .pam => picture.pam
  | .tiff => picture.tiff
  | .qoi => picture.qoi
  | .ico => picture.ico
  | .gif => picture.gif
  | .webp => picture.webp
  | .avif => picture.avif

end Picture

end CodeAtlas
