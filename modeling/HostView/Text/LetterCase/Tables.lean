/-!
# The letters that change their case

Runs of characters, in the order of their numbers. Each entry begins with how far the first of a run
is from that of the run before; all numbers are in base 36.
-/

namespace HostView.LetterCase

/-- Runs of characters with a capital form: how many follow the first, in which steps, and how far
the capital is from the character. -/
def capitalEntries : String :=
  String.join [
    "2p p 1 -w,2c 0 1 kn,17 m 1 -w,o 6 1 -w,7 0 1 3d,2 n 2 -1,1c 0 1 -6g,2 2 2 -1,7 7 2 -1,",
    "h m 2 -1,1b 2 2 -1,5 0 1 -8c,1 0 1 5f,3 1 2 -1,5 0 1 -1,4 0 1 -1,6 0 1 -1,3 0 1 2p,4 0 1 -1,",
    "1 0 1 4j,1 0 1 wu9,3 0 1 3m,3 2 2 -1,7 0 1 -1,5 0 1 -1,3 0 1 -1,4 1 2 -1,5 0 1 -1,4 0 1 -1,",
    "2 0 1 1k,6 0 1 -1,1 0 1 -2,2 0 1 -1,1 0 1 -2,2 0 1 -1,1 0 1 -2,2 7 2 -1,f 0 1 -27,2 8 2 -1,",
    "j 0 1 -1,1 0 1 -2,2 0 1 -1,4 j 2 -1,16 8 2 -1,p 0 1 -1,3 1 1 8cf,3 0 1 -1,5 4 2 -1,",
    "9 0 1 8bj,1 0 1 8bg,1 0 1 8bi,1 0 1 -5u,1 0 1 -5q,2 1 1 -5p,3 0 1 -5m,2 0 1 -5n,1 0 1 wnj,",
    "4 0 1 -5p,1 0 1 wnf,2 0 1 -5r,1 0 1 wo7,1 0 1 wmg,1 0 1 wn8,2 0 1 -5t,1 0 1 -5v,1 0 1 wn8,",
    "1 0 1 8af,1 0 1 wn5,3 0 1 -5v,2 0 1 8al,1 0 1 -5x,3 0 1 -5y,8 0 1 89z,3 0 1 -62,2 0 1 wn7,",
    "1 0 1 -62,4 0 1 wmi,1 0 1 -62,1 0 1 -1x,1 1 1 -61,2 0 1 -1z,6 0 1 -63,b 0 1 wlx,1 0 1 wlu,",
    "4n 0 1 2c,18 1 2 -1,6 0 1 -1,4 2 1 3m,1d 0 1 -12,1 2 1 -11,4 g 1 -w,h 0 1 -v,1 8 1 -w,",
    "9 0 1 -1s,1 1 1 -1r,3 0 1 -1q,1 0 1 -1l,4 0 1 -1b,1 0 1 -1i,1 0 1 -8,2 b 2 -1,n 0 1 -2e,",
    "1 0 1 -28,1 0 1 7,1 0 1 -38,2 0 1 -2o,3 0 1 -1,3 0 1 -1,1h v 1 -w,w f 1 -28,h g 2 -1,",
    "16 q 2 -1,1j 6 2 -1,d 0 1 -f,2 1b 2 -1,40 11 1 -1c,29b 16 1 2bk,19 2 1 2bk,l7 5 1 -8,",
    "1oo 0 1 -4tq,1 0 1 -4tp,1 0 1 -4tg,1 1 1 -4te,2 0 1 -4tf,1 0 1 -4t8,1 0 1 -4rp,1 0 1 r7m,",
    "2 0 1 -1,6n 0 1 r9g,4 0 1 2xy,h 0 1 raw,37 22 2 -1,4a 0 1 -1n,6 1b 2 -1,2n 7 1 8,g 5 1 8,",
    "g 7 1 8,g 7 1 8,g 5 1 8,h 3 2 8,f 7 1 8,g 1 1 22,2 3 1 2e,4 1 1 2s,2 1 1 3k,2 1 1 34,",
    "2 1 1 3i,1g 1 1 8,e 0 1 -5k5,i 1 1 8,g 1 1 8,5 0 1 7,a1 0 1 -s,y f 1 -g,k 0 1 -1,ng p 1 -q,",
    "1gg 1b 1 -1c,1d 0 1 -1,4 0 1 -8bv,1 0 1 -8bs,2 2 2 -1,b 0 1 -1,3 0 1 -1,b 1d 2 -1,2z 1 2 -1,",
    "7 0 1 -1,d 11 1 -5ls,13 0 1 -5ls,6 0 1 -5ls,nx0 m 2 -1,1s d 2 -1,4i 6 2 -1,g u 2 -1,",
    "1z 1 2 -1,5 4 2 -1,d 0 1 -1,5 1 2 -1,3 0 1 1c,3 9 2 -1,u 7 2 -1,j 1 2 -1,5 0 1 -1,4 0 1 -1,",
    "6 2 2 -1,v 0 1 -1,nx 0 1 -ps,t 27 1 -tzk,gk1 p 1 -w,yv 13 1 -14,4w z 1 -14,5b a 1 -13,",
    "c e 1 -13,g 6 1 -13,8 1 1 -13,1dx 1e 1 -1s,4w l 1 -w,28g v 1 -w,gww v 1 -w,o8y x 1 -y"]

/-- Runs of characters with a small form: how many follow the first, in which steps, and how far the
small form is from the character. -/
def smallEntries : String :=
  String.join [
    "1t p 1 w,3j m 1 w,o 6 1 w,14 n 2 1,1e 2 2 1,7 7 2 1,h m 2 1,1a 0 1 -3d,1 2 2 1,8 0 1 5u,",
    "1 1 2 1,4 0 1 5q,1 0 1 1,2 1 1 5p,2 0 1 1,3 0 1 27,1 0 1 5m,1 0 1 5n,1 0 1 1,2 0 1 5p,",
    "1 0 1 5r,2 0 1 5v,1 0 1 5t,1 0 1 1,4 0 1 5v,1 0 1 5x,2 0 1 5y,1 2 2 1,6 0 1 62,1 0 1 1,",
    "2 0 1 62,3 0 1 1,2 0 1 62,1 0 1 1,2 1 1 61,2 1 2 1,4 0 1 63,1 0 1 1,4 0 1 1,8 0 1 2,1 0 1 1,",
    "2 0 1 2,1 0 1 1,2 0 1 2,1 8 2 1,j 8 2 1,j 0 1 2,1 1 2 1,4 0 1 -2p,1 0 1 -1k,1 j 2 1,",
    "14 0 1 -3m,2 8 2 1,o 0 1 8bv,1 0 1 1,2 0 1 -4j,1 0 1 8bs,3 0 1 1,2 0 1 -5f,1 0 1 1x,",
    "1 0 1 1z,1 4 2 1,8a 1 2 1,6 0 1 1,9 0 1 38,7 0 1 12,2 2 1 11,4 0 1 1s,2 1 1 1r,3 g 1 w,",
    "i 8 1 w,18 0 1 8,9 b 2 1,s 0 1 -1o,3 0 1 1,2 0 1 -7,1 0 1 1,3 2 1 -3m,3 f 1 28,g v 1 w,",
    "28 g 2 1,16 q 2 1,1i 0 1 f,1 6 2 1,f 1b 2 1,2p 11 1 1c,29b 11 1 5ls,13 0 1 5ls,6 0 1 5ls,",
    "k3 27 1 tzk,28 5 1 8,1p5 0 1 1,7 16 1 -2bk,19 2 1 -2bk,8z 22 2 1,4e 0 1 -5vj,2 1b 2 1,",
    "2w 7 1 -8,g 5 1 -8,g 7 1 -8,g 7 1 -8,g 5 1 -8,h 3 2 -8,f 7 1 -8,w 7 1 -8,g 7 1 -8,g 7 1 -8,",
    "g 1 1 -8,2 1 1 -22,2 0 1 -9,c 3 1 -2e,4 0 1 -9,c 1 1 -8,2 1 1 -2s,e 1 1 -8,2 1 1 -34,",
    "2 0 1 -7,c 1 1 -3k,2 1 1 -3i,2 0 1 -9,8a 0 1 -5st,4 0 1 -6gv,1 0 1 -6di,7 0 1 s,1a f 1 g,",
    "z 0 1 1,mr p 1 q,1fu 1b 1 1c,2o 0 1 1,2 0 1 -8af,1 0 1 -2xy,1 0 1 -89z,3 2 2 1,6 0 1 -8bg,",
    "1 0 1 -8al,1 0 1 -8bj,1 0 1 -8bi,2 0 1 1,3 0 1 1,9 1 1 -8cf,2 1d 2 1,2z 1 2 1,7 0 1 1,",
    "nym m 2 1,1s d 2 1,4i 6 2 1,g u 2 1,1z 1 2 1,4 0 1 -r9g,1 4 2 1,d 0 1 1,2 0 1 -wmg,3 1 2 1,",
    "6 9 2 1,k 0 1 -wn8,1 0 1 -wnj,1 0 1 -wnf,1 0 1 -wn5,1 0 1 -wn8,2 0 1 -wlu,1 0 1 -wmi,",
    "1 0 1 -wlx,1 0 1 ps,1 7 2 1,g 0 1 -1c,1 0 1 -wn7,1 0 1 -raw,1 1 2 1,4 0 1 -wo7,1 0 1 1,",
    "4 0 1 1,6 2 2 1,6 0 1 -wu9,p 0 1 1,h7w p 1 w,yn 13 1 14,4w z 1 14,5c a 1 13,c e 1 13,",
    "g 6 1 13,8 1 1 13,1d8 1e 1 1s,5s l 1 w,28g v 1 w,gww v 1 w,o8w x 1 y"]

/-- The characters whose capital form is several characters, with these. -/
def longCapitalEntries : String :=
  String.join [
    "67 2b 2b,2y jg 26,4n 22 lo,bk pl lk ld,w px lk ld,d3 111 11u,4y7 20 mp,1 2c lk,1 2f lm,",
    "1 2h lm,1 1t ji,52 px lv,2 px lv lc,2 px lv ld,2 px lv n6,16 64o pl,1 64p pl,1 64q pl,",
    "1 64r pl,1 64s pl,1 64t pl,1 64u pl,1 64v pl,1 64o pl,1 64p pl,1 64q pl,1 64r pl,1 64s pl,",
    "1 64t pl,1 64u pl,1 64v pl,1 65k pl,1 65l pl,1 65m pl,1 65n pl,1 65o pl,1 65p pl,1 65q pl,",
    "1 65r pl,1 65k pl,1 65l pl,1 65m pl,1 65n pl,1 65o pl,1 65p pl,1 65q pl,1 65r pl,1 67c pl,",
    "1 67d pl,1 67e pl,1 67f pl,1 67g pl,1 67h pl,1 67i pl,1 67j pl,1 67c pl,1 67d pl,1 67e pl,",
    "1 67f pl,1 67g pl,1 67h pl,1 67i pl,1 67j pl,3 69m pl,1 pd pl,1 p2 pl,2 pd n6,1 pd n6 pl,",
    "5 pd pl,6 6a2 pl,1 pj pl,1 p5 pl,2 pj n6,1 pj n6 pl,5 pj pl,6 pl lk lc,1 pl lk ld,3 pl n6,",
    "1 pl lk n6,b px lk lc,1 px lk ld,1 pt lv,2 px n6,1 px lk n6,b 6be pl,1 q1 pl,1 pb pl,",
    "2 q1 n6,1 q1 n6 pl,5 q1 pl,179g 1y 1y,1 1y 21,1 1y 24,1 1y 1y 21,1 1y 1y 24,1 2b 2c,1 2b 2c,",
    "d 11g 11i,1 11g 111,1 11g 117,1 11q 11i,1 11g 119"]

/-- Runs of letters that have a case: how many follow the first. -/
def casedEntries : String :=
  String.join [
    "1t p,w p,21 0,b 0,5 0,6 m,o u,w 5e,5g 3,8 5r,5u y,16 1,w 4,2t 0,17 3,6 1,4 3,5 0,7 0,2 2,",
    "4 0,2 j,l 2a,2c 3u,43 4l,4n 11,1b 14,280 11,13 0,6 0,3 16,18 3,is 2d,2g 5,1oo a,g 16,19 2,",
    "1v 5b,74 7p,7s 5,8 11,14 5,8 7,9 0,2 0,2 0,2 u,x 1g,1i 6,8 0,4 2,4 6,a 3,6 5,a c,i 2,4 6,",
    "3f 0,e 0,h c,36 0,5 0,3 9,b 0,4 4,b 0,2 0,2 0,2 3,5 5,a 0,3 3,9 4,9 0,i v,z 1,mr 1f,1fu 6c,",
    "6j 3,7 1,e 11,13 0,6 0,nwz 19,1s t,4i 2t,2x 3,5 1p,1s 1,3 0,2 7,t 4,6 2,mw 16,18 d,k 27,",
    "fps 6,j 4,su p,w p,xr 27,4w z,14 z,48 a,c e,g 6,8 1,3 a,c e,g 6,8 1,cl 0,3 2,4 15,17 8,",
    "y6 1e,1s 1e,40 l,w l,27k 1r,gww 1r,k3k 2c,2e 1y,20 1,4 0,3 1,4 3,5 b,d 0,2 6,8 1s,1u 3,6 7,",
    "9 6,8 r,t 3,5 4,6 0,4 6,8 9f,9i o,q o,q u,w o,q u,w o,q u,w o,q u,w o,q 7,1fg 9,b j,q 5,",
    "7f 1p,1qo 1v,1m8 p,w p,w p"]

/-- Runs of characters that are passed over where the case of a neighbour matters: how many follow
the first. -/
def ignorableEntries : String :=
  String.join [
    "13 0,7 0,c 0,10 0,2 0,20 0,5 0,2 0,5 0,3 1,e1 5b,5g 1,6 0,a 1,3 0,70 6,5y 0,6 0,1e 18,1a 0,",
    "2 1,3 1,3 0,19 0,c 5,g a,c 0,10 0,b k,11 0,2u 7,9 9,b 3,11 0,2 0,v q,3a a,1x a,f 0,3 0,p n,",
    "1v 2,1b 0,8 1,7 8,1e 1l,35 0,2 0,5 7,c 0,4 6,h 1,f 0,g 0,1n 0,5 3,c 0,l 1,s 0,3 1,1n 0,5 1,",
    "6 1,4 2,6 0,v 1,5 0,c 1,1n 0,5 4,6 1,6 0,l 1,o 5,7 0,1n 0,3 0,2 3,c 0,8 1,d 1,w 0,1q 0,d 0,",
    "1f 0,4 0,1k 0,2 2,8 2,4 3,b 1,d 1,v 0,1n 0,3 0,7 0,6 1,m 1,u 1,1n 1,6 3,c 0,l 1,v 0,21 0,",
    "8 2,4 0,2j 0,3 6,i 8,2z 0,3 8,i 0,2 6,28 1,t 0,2 0,2 0,1k d,f 4,6 1,7 a,c z,19 0,2v 3,5 5,",
    "7 1,4 1,r 1,6 2,j 3,h 0,3 1,8 0,g 0,2n 0,gx 2,qd 2,w 1,w 1,w 1,1u 1,3 6,f 0,3 a,e 0,6 0,",
    "1a 4,1k 0,1u 1,10 0,3b 2,7 1,b 0,7 2,66 1,4 0,1n 0,2 6,8 0,2 0,3 7,e 9,c 0,14 0,9 u,28 3,",
    "1g 0,2 4,6 0,6 0,15 8,l 1,y 3,6 1,3 2,1n 0,2 1,5 0,2 2,1p 7,a 1,1u 5,2g 2,4 c,e 6,b 0,7 0,",
    "4 1,1g 1q,24 0,z 2s,f6 0,2 2,e 2,g 2,g 2,g 1,e 4,d 1,c 0,3 0,3 4,1i 4,6 9,b 0,e 0,h c,1s w,",
    "2b0 1,37 2,3k 0,g 0,2p v,27 0,d2 0,11 3,7 4,a 0,2m 5,2r 2,ly1 0,yr 5,7o 0,2r 3,5 9,b 0,t 3,",
    "2c 1,g x,34 0,o 2,2y 2,6 1,a 0,4 0,5 0,q 1,7 0,48 1,s h,v 0,13 7,x a,1l 2,1f 0,3 3,6 1,j 0,",
    "m 1,1w 5,8 1,4 1,e 0,9 0,10 0,c 0,1g 0,2 2,5 1,7 1,3 0,s 0,f 1,7 1,3 0,2t 4,e 2,3g 0,3 0,",
    "5 0,fn5 0,44 g,ge f,j 0,d f,1e 0,3 0,4q 0,8 0,7 0,c 0,10 0,2 0,1c 0,1a 1,1x 0,m 2,ec 0,6b 0,",
    "46 4,sq 5,7 15,17 8,gf 2,4 1,7 3,18 2,7 0,4m 1,fz 3,16 0,r 4,6 0,8s 1,q 0,1j 3,22 a,1o 3,",
    "3j 0,1j e,1k 0,3 1,c 2,1g 3,6 1,4 0,5 0,b 0,1f 2,13 4,6 7,1y 0,d 1,1i 8,j 3,6 0,2o 2,5 0,",
    "2 1,8 0,3 0,4e 0,4 7,t 1,1n 1,5 0,12 6,a 4,23 5,j 0,2 0,2 0,f 1,2f 7,a 2,4 0,o 0,2d 5,7 0,",
    "5 1,3 1,6o 3,a 1,3 1,t 1,2f 7,a 0,2 1,30 0,2 0,3 5,7 0,2u 0,2 0,3 3,5 4,7c 8,a 1,76 1,3 0,",
    "5 0,41 3,6 1,6 0,x 9,1e 5,8 3,c 0,a 5,8 2,1d c,e 1,bc 6,8 5,7 0,2b l,o 6,8 1,3 1,3g 5,9 0,",
    "2 1,3 6,8 0,21 1,5 0,2 0,9o 1,d 1,1i 4,a 0,2 0,o 0,446 g,n e,8uv b,f 2,1xf 4,1s 6,g 3,e8 2,",
    "17 1,dg 0,1s g,29 1,3 1,f 1,cn2 3,5 6,8 1,2hs 1,3 3,3mo 19,1c m,fr 2,c f,i 6,11 3,48 2,",
    "1j2 1i,1n 1d,1m 0,f 0,n 4,6 e,127 6,8 g,j 6,8 1,3 4,a 1p,2n 0,4h d,am 0,1q 3,e7 4,77 1,ki 6,",
    "38 7,247 4,gx6u 0,v 2n,68 6n"]

end HostView.LetterCase
